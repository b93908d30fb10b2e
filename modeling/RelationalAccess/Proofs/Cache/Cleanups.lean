import Mathlib.Data.List.Perm.Basic
import RelationalAccess.Proofs.Cache.Holdings

/-!
What a cleanup evicts. First go the rows that are too old, and then, of the rest in the
order of the policy, the fewest from the front without which all limits are kept.
-/

namespace RelationalAccess

namespace Limit

/-- An amount as it is counted, which goes no further than the greatest number of 64 bits. -/
def counted (amount : Nat) : Nat := min amount (2 ^ 64 - 1)

/-- So many rows of so many octets keep within a limit. One of age is none on them. -/
def Allows (limit : Limit) (rows bytes : Nat) : Prop :=
  match limit.kind with
  | .rows => rows ≤ limit.value
  | .bytes => bytes ≤ counted limit.value
  | .kilobytes => bytes ≤ counted (limit.value * 1024)
  | .megabytes => bytes ≤ counted (limit.value * 1048576)
  | .gigabytes => bytes ≤ counted (limit.value * 1073741824)
  | .seconds | .minutes | .hours => True

/-- The seconds for which a limit of age lets a row be held. -/
def lifetime? (limit : Limit) : Option Nat :=
  match limit.kind with
  | .seconds => some (counted limit.value)
  | .minutes => some (counted (limit.value * 60))
  | .hours => some (counted (limit.value * 3600))
  | .rows | .bytes | .kilobytes | .megabytes | .gigabytes => none

/-- Whether what was stored at a time has outlived a limit of age at another, where so much time
has passed at all. Times are counted in nanoseconds. -/
def isOutlivedBy (limit : Limit) (now storedAt : Nat) : Bool :=
  limit.lifetime?.any fun seconds =>
    decide (seconds * 1000000000 ≤ now ∧ storedAt < now - seconds * 1000000000)

theorem allows_iff (limit : Limit) (rows bytes : Nat) :
    limit.Allows rows bytes ↔
      (∀ most, limit.rows? = some most → rows ≤ most) ∧
        ∀ most, limit.bytes? = some most → bytes ≤ most := by
  obtain ⟨kind, value⟩ := limit
  cases kind <;> simp [Allows, rows?, bytes?, scaled, counted, greatest]

theorem lifetime?_eq_seconds? (limit : Limit) : limit.lifetime? = limit.seconds? := by
  obtain ⟨kind, value⟩ := limit
  cases kind <;> simp [lifetime?, seconds?, scaled, counted, greatest]

end Limit

namespace CacheSettings

/-- So many rows of so many octets keep within every limit. -/
def Allows (settings : CacheSettings) (rows bytes : Nat) : Prop :=
  ∀ limit ∈ settings.limits, limit.Allows rows bytes

/-- What keeps within the lowest of some ceilings keeps within each of them. -/
private theorem le_lowest_iff {ceiling? : Limit → Option Nat} {limits : List Limit} {amount : Nat} :
    (∀ most, (limits.filterMap ceiling?).min? = some most → amount ≤ most) ↔
      ∀ limit ∈ limits, ∀ most, ceiling? limit = some most → amount ≤ most := by
  constructor
  · intro within limit isLimit ceiling isCeiling
    have among : ceiling ∈ limits.filterMap ceiling? :=
      List.mem_filterMap.mpr ⟨limit, isLimit, isCeiling⟩
    cases lowest : (limits.filterMap ceiling?).min? with
    | none => simp [List.min?_eq_none_iff.mp lowest] at among
    | some least => exact (List.le_min?_iff lowest).mp (within least lowest) ceiling among
  · intro within most lowest
    obtain ⟨limit, isLimit, isCeiling⟩ := List.mem_filterMap.mp (List.min?_mem lowest)
    exact within limit isLimit most isCeiling

theorem allows_iff {settings : CacheSettings} {rows bytes : Nat} :
    settings.Allows rows bytes ↔
      (∀ most, settings.maxRows? = some most → rows ≤ most) ∧
        ∀ most, settings.maxBytes? = some most → bytes ≤ most := by
  rw [maxRows?, maxBytes?, le_lowest_iff, le_lowest_iff]
  constructor
  · intro allows
    exact ⟨fun limit isLimit => ((limit.allows_iff rows bytes).mp (allows limit isLimit)).1,
      fun limit isLimit => ((limit.allows_iff rows bytes).mp (allows limit isLimit)).2⟩
  · rintro ⟨onRows, onBytes⟩ limit isLimit
    exact (limit.allows_iff rows bytes).mpr ⟨onRows limit isLimit, onBytes limit isLimit⟩

end CacheSettings

namespace HeldRow

/-- Some rows keep within the limits. -/
def Fit (settings : CacheSettings) (rows : List HeldRow) : Prop :=
  settings.Allows rows.length (rows.map size).sum

/-- One row is evicted before another: the older one, or else the larger one and the older
one of two that are equally large. -/
def GoesBefore (policy : EvictionPolicy) (first later : HeldRow) : Prop :=
  match policy with
  | .oldestFirst => first.storedAt < later.storedAt
  | .largestFirst =>
    later.size < first.size ∨ first.size = later.size ∧ first.storedAt < later.storedAt

/-- Whether a row has outlived one of the limits at a time. -/
def isAged (settings : CacheSettings) (now : Nat) (row : HeldRow) : Bool :=
  settings.limits.any fun limit => limit.isOutlivedBy now row.storedAt

/-- What has outlived any limit has outlived the shortest. -/
theorem isAged_eq (settings : CacheSettings) (now : Nat) (row : HeldRow) :
    isAged settings now row =
      (settings.maxAge?.map Limit.nanoseconds).any fun age =>
        decide (age ≤ now ∧ row.storedAt < now - age) := by
  rw [Bool.eq_iff_iff, isAged, List.any_eq_true, Option.any_map, Option.any_eq_true,
    CacheSettings.maxAge?]
  simp only [Limit.isOutlivedBy, Limit.lifetime?_eq_seconds?, Option.any_eq_true]
  constructor
  · rintro ⟨limit, isLimit, seconds, isAge, outlived⟩
    have among : seconds ∈ settings.limits.filterMap Limit.seconds? :=
      List.mem_filterMap.mpr ⟨limit, isLimit, isAge⟩
    cases shortest : (settings.limits.filterMap Limit.seconds?).min? with
    | none => simp [List.min?_eq_none_iff.mp shortest] at among
    | some least =>
      have shorter : least ≤ seconds := (List.le_min?_iff shortest).mp (Nat.le_refl _) seconds among
      have sooner : Limit.nanoseconds least ≤ Limit.nanoseconds seconds :=
        Nat.mul_le_mul_right _ shorter
      have longPast : Limit.nanoseconds seconds ≤ now ∧
          row.storedAt < now - Limit.nanoseconds seconds := of_decide_eq_true outlived
      refine ⟨least, rfl, decide_eq_true ?_⟩
      omega
  · rintro ⟨least, shortest, outlived⟩
    obtain ⟨limit, isLimit, isAge⟩ := List.mem_filterMap.mp (List.min?_mem shortest)
    exact ⟨limit, isLimit, least, isAge, outlived⟩

/-- Rows are parted into the fewest from the front without which the others keep within the
limits, and those others. -/
structure Parts (settings : CacheSettings) (rows gone kept : List HeldRow) : Prop where
  split : rows = gone ++ kept
  fit : Fit settings kept
  shortest : ∀ fewer more, gone = fewer ++ more → more ≠ [] → ¬ Fit settings (more ++ kept)

end HeldRow

namespace DatabaseCache

open HeldRow (Fit GoesBefore isAged isAged_eq Parts)

theorem isOver_eq_false_iff {limit : Option Nat} {amount : Nat} :
    isOver limit amount = false ↔ ∀ most, limit = some most → amount ≤ most := by
  cases limit with
  | none => simp [isOver]
  | some most => simp [isOver]

theorem isOverLimits_eq_false_iff {settings : CacheSettings} {rows bytes : Nat} :
    isOverLimits settings rows bytes = false ↔ settings.Allows rows bytes := by
  rw [isOverLimits, Bool.or_eq_false_iff, isOver_eq_false_iff, isOver_eq_false_iff,
    CacheSettings.allows_iff]

/-- A cache of a database that differs from another in the caches of the tables alone. -/
def SameButTables (cache other : DatabaseCache) : Prop := other = { cache with tables := other.tables }

theorem SameButTables.trans {first second third : DatabaseCache}
    (earlier : first.SameButTables second) (later : second.SameButTables third) :
    first.SameButTables third := by
  unfold SameButTables at *
  rw [later, earlier]

/-- Rows that are evicted in an order for as long as a limit is passed are the fewest from the
front without which the limits are kept. -/
theorem evictInOrder_parts (settings : CacheSettings) {cache : DatabaseCache}
    (counted : cache.Counted) {order : List HeldRow} (inOrder : cache.held.Perm order) :
    let result := evictInOrder settings cache order.length (order.map HeldRow.size).sum
      (order.map HeldRow.evictable)
    cache.SameButTables result.2 ∧ result.2.Counted ∧
      ∃ gone kept, Parts settings order gone kept ∧ result.1 = gone.length ∧
        result.2.held.Perm kept := by
  induction order generalizing cache with
  | nil =>
    refine ⟨rfl, counted, [], [], ⟨rfl, ?_, ?_⟩, rfl, inOrder⟩
    · exact CacheSettings.allows_iff.mpr ⟨fun _ _ => Nat.zero_le _, fun _ _ => Nat.zero_le _⟩
    · intro fewer more none isMore
      exact absurd (List.append_eq_nil_iff.mp none.symm).2 isMore
  | cons row others inductionHypothesis =>
    have isHeld : row ∈ cache.held := inOrder.mem_iff.mpr List.mem_cons_self
    have evicts : cache.SameButTables (cache.evict row.evictable) := rfl
    have othersLeft : (cache.evict row.evictable).held.Perm others :=
      ((cache.perm_evict isHeld).symm.trans inOrder).cons_inv
    simp only [List.map_cons, List.length_cons, List.sum_cons, evictInOrder]
    cases isOver : isOverLimits settings (others.length + 1)
      (row.size + (others.map HeldRow.size).sum) with
    | false =>
      have fits := isOverLimits_eq_false_iff.mp isOver
      refine ⟨rfl, counted, [], row :: others, ⟨rfl, fits, ?_⟩, rfl, inOrder⟩
      intro fewer more none isMore
      exact absurd (List.append_eq_nil_iff.mp none.symm).2 isMore
    | true =>
      obtain ⟨same, stillCounted, gone, kept, parts, evicted, left⟩ :=
        inductionHypothesis (counted.evict isHeld) othersLeft
      have fewerRows : others.length + 1 - 1 = others.length := Nat.add_sub_cancel _ _
      have fewerBytes : row.size + (others.map HeldRow.size).sum - row.evictable.size =
          (others.map HeldRow.size).sum := Nat.add_sub_cancel_left _ _
      simp only [if_true, fewerRows, fewerBytes]
      refine ⟨evicts.trans same, stillCounted, row :: gone, kept,
        ⟨congrArg (row :: ·) parts.split, parts.fit, ?_⟩, congrArg (· + 1) evicted, left⟩
      intro fewer more isSplit isMore fits
      cases fewer with
      | nil =>
        have all : more ++ kept = row :: others := by
          rw [parts.split, ← List.cons_append, isSplit]
          rfl
        rw [all] at fits
        have notOver := isOverLimits_eq_false_iff.mpr fits
        rw [List.length_cons, List.map_cons, List.sum_cons, isOver] at notOver
        cases notOver
      | cons first fewer =>
        obtain ⟨_, rest⟩ := List.cons.inj isSplit
        exact parts.shortest fewer more rest isMore fits

section

variable (policy : EvictionPolicy)

theorem goesFirst_trans (first second third : HeldRow)
    (earlier : goesFirst policy first.evictable second.evictable = true)
    (later : goesFirst policy second.evictable third.evictable = true) :
    goesFirst policy first.evictable third.evictable = true := by
  cases policy with
  | oldestFirst =>
    simp only [goesFirst, decide_eq_true_eq] at *
    omega
  | largestFirst =>
    simp only [goesFirst, Bool.or_eq_true, Bool.and_eq_true, decide_eq_true_eq, beq_iff_eq] at *
    omega

theorem goesFirst_total (first second : HeldRow) :
    (goesFirst policy first.evictable second.evictable ||
      goesFirst policy second.evictable first.evictable) = true := by
  rw [Bool.or_eq_true]
  cases policy with
  | oldestFirst =>
    simp only [goesFirst, decide_eq_true_eq]
    omega
  | largestFirst =>
    simp only [goesFirst, Bool.or_eq_true, Bool.and_eq_true, decide_eq_true_eq, beq_iff_eq]
    omega

variable {policy}

theorem goesBefore_of_goesFirst {first later : HeldRow}
    (isFirst : goesFirst policy first.evictable later.evictable = true)
    (apart : first.storedAt ≠ later.storedAt) : GoesBefore policy first later := by
  cases policy with
  | oldestFirst =>
    have notLater : first.storedAt ≤ later.storedAt := of_decide_eq_true isFirst
    exact Nat.lt_of_le_of_ne notLater apart
  | largestFirst =>
    simp only [goesFirst, Bool.or_eq_true, Bool.and_eq_true, decide_eq_true_eq, beq_iff_eq] at isFirst
    rcases isFirst with larger | ⟨same, notLater⟩
    · exact .inl larger
    · exact .inr ⟨same, Nat.lt_of_le_of_ne notLater apart⟩

end

/-- No two rows were stored at the same time. -/
def StoredApart (cache : DatabaseCache) : Prop := (cache.held.map HeldRow.storedAt).Nodup

/-- What tables keep, and how many rows go, when what was stored before a time is evicted. -/
private theorem evictTables_spec (cutoff first : Nat) (tables : List TableCache) :
    (evictTables cutoff tables).2 = tables.map (fun table => (table.evictBefore cutoff).2) ∧
      (evictTables cutoff tables).1 =
        ((TableCache.heldFrom first tables).filter fun row => decide (row.storedAt < cutoff)).length := by
  induction tables generalizing first with
  | nil => exact ⟨rfl, rfl⟩
  | cons table tables inductionHypothesis =>
    obtain ⟨left, evicted⟩ := inductionHypothesis (first + 1)
    have here : ((table.heldAt first).filter fun row => decide (row.storedAt < cutoff)).length =
        (table.evictBefore cutoff).1.1 := by
      rw [TableCache.heldAt, List.filter_map, List.length_map]
      exact (List.length_map _).symm
    refine ⟨congrArg _ left, ?_⟩
    rw [TableCache.heldFrom_cons, List.filter_append, List.length_append, here, ← evicted]
    rfl

/-- An eviction by age takes out the rows that are too old and no others. -/
theorem evictAged_spec {cache : DatabaseCache} (counted : cache.Counted) (now : Nat) :
    let settings := cache.database.settings
    cache.SameButTables (cache.evictAged now).2 ∧ (cache.evictAged now).2.Counted ∧
      (cache.evictAged now).1 = (cache.held.filter (isAged settings now)).length ∧
      (cache.evictAged now).2.held = cache.held.filter fun row => !isAged settings now row := by
  have none (nothing : ∀ row : HeldRow, isAged cache.database.settings now row = false) :
      (cache.held.filter (isAged cache.database.settings now)).length = 0 ∧
        cache.held = cache.held.filter fun row => !isAged cache.database.settings now row := by
    simp [nothing]
  unfold evictAged
  split
  · next noLimit =>
    obtain ⟨noRows, all⟩ := none fun row => by rw [isAged_eq, noLimit]; rfl
    exact ⟨rfl, counted, noRows.symm, all⟩
  · next age limit =>
    split
    · next tooEarly =>
      obtain ⟨noRows, all⟩ := none fun row => by
        rw [isAged_eq, limit]
        exact decide_eq_false fun isAged => absurd isAged.1 (Nat.not_le.mpr tooEarly)
      exact ⟨rfl, counted, noRows.symm, all⟩
    · next isPast =>
      have aged (row : HeldRow) :
          isAged cache.database.settings now row = decide (row.storedAt < now - age) := by
        rw [isAged_eq, limit]
        exact decide_eq_decide.mpr (and_iff_right (Nat.not_lt.mp isPast))
      obtain ⟨left, evicted⟩ := evictTables_spec (now - age) 0 cache.tables
      refine ⟨rfl, fun table membership => ?_, ?_, ?_⟩
      · change table ∈ (evictTables (now - age) cache.tables).2 at membership
        rw [left] at membership
        obtain ⟨whole, isWhole, rfl⟩ := List.mem_map.mp membership
        have wholeCounted := counted whole isWhole
        exact TableCache.Adjusted.counted (wholeCounted.evictBefore _) wholeCounted
      · rw [funext aged]
        exact evicted
      · have kept := TableCache.heldFrom_map (fun table => (table.evictBefore (now - age)).2)
          (fun entry => decide (now - age ≤ entry.storedAt))
          (fun table => table.evictBefore_list (now - age)) 0 cache.tables
        show TableCache.heldFrom 0 (evictTables (now - age) cache.tables).2 = _
        rw [left]
        refine Eq.trans kept (List.filter_congr fun row _ => ?_)
        rw [aged, ← decide_not]
        exact decide_eq_decide.mpr Nat.not_lt.symm

/-- An eviction to the limits takes out the fewest rows from the front, in the order of the
policy, without which the limits are kept. -/
theorem evictExcess_spec {cache : DatabaseCache} (counted : cache.Counted)
    (apart : cache.StoredApart) :
    let settings := cache.database.settings
    cache.SameButTables cache.evictExcess.2 ∧ cache.evictExcess.2.Counted ∧
      ∃ order gone kept, order.Perm cache.held ∧ order.Pairwise (GoesBefore settings.eviction) ∧
        Parts settings order gone kept ∧ cache.evictExcess.1 = gone.length ∧
        cache.evictExcess.2.held.Perm kept := by
  intro settings
  let goes (first later : HeldRow) : Bool :=
    goesFirst settings.eviction first.evictable later.evictable
  let order := cache.held.mergeSort goes
  have isOrder : order.Perm cache.held := List.mergeSort_perm _ _
  have sorted : order.Pairwise fun first later => goes first later = true :=
    List.pairwise_mergeSort (goesFirst_trans settings.eviction) (goesFirst_total settings.eviction) _
  have distinct : order.Pairwise fun first later => first.storedAt ≠ later.storedAt :=
    List.pairwise_map.mp ((isOrder.map HeldRow.storedAt).nodup_iff.mpr apart)
  have ordered : order.Pairwise (GoesBefore settings.eviction) :=
    (sorted.and distinct).imp fun ⟨first, differ⟩ => goesBefore_of_goesFirst first differ
  have runs : cache.evictExcess = evictInOrder settings cache order.length
      (order.map HeldRow.size).sum (order.map HeldRow.evictable) := by
    have candidates : order.map HeldRow.evictable =
        cache.candidates.mergeSort (goesFirst settings.eviction) := by
      rw [candidates_eq]
      exact List.map_mergeSort fun _ _ _ _ => rfl
    rw [candidates, isOrder.length_eq, (isOrder.map HeldRow.size).sum_eq, ← totalRows_eq,
      ← totalBytes_eq counted]
    rfl
  obtain ⟨same, stillCounted, gone, kept, parts, evicted, left⟩ :=
    evictInOrder_parts settings counted isOrder.symm
  rw [runs]
  exact ⟨same, stillCounted, order, gone, kept, isOrder, ordered, parts, evicted, left⟩

/-- What a cleanup at a time comes to. The rows that are not too old are parted, in the order
of the policy, into those that go and those that are kept: no fewer could go for the limits to
be kept. What goes is what is counted. -/
structure CleansUp (cache : DatabaseCache) (now : Nat) (gone kept : List HeldRow) : Prop where
  rest : (gone ++ kept).Perm
    (cache.held.filter fun row => !isAged cache.database.settings now row)
  ordered : (gone ++ kept).Pairwise (GoesBefore cache.database.settings.eviction)
  shortest : ∀ fewer more, gone = fewer ++ more → more ≠ [] →
    ¬ Fit cache.database.settings (more ++ kept)
  left : (cache.cleanUpAt now).2.held.Perm kept
  allowed : cache.database.settings.Allows (cache.cleanUpAt now).2.totalRows
    (cache.cleanUpAt now).2.totalBytes
  evicted : (cache.cleanUpAt now).1 =
    (cache.held.filter (isAged cache.database.settings now)).length + gone.length
  fewer : (cache.cleanUpAt now).2.totalRows + (cache.cleanUpAt now).1 = cache.totalRows
  recorded : (cache.cleanUpAt now).2.evictedRows = cache.evictedRows + (cache.cleanUpAt now).1

/-- No row goes both before and behind another. -/
theorem goesBefore_asymm {policy : EvictionPolicy} {first later : HeldRow}
    (isBefore : GoesBefore policy first later) : ¬ GoesBefore policy later first := by
  cases policy with
  | oldestFirst =>
    simp only [GoesBefore] at *
    omega
  | largestFirst =>
    simp only [GoesBefore] at *
    omega

namespace CleansUp

variable {cache : DatabaseCache} {now : Nat} {gone kept : List HeldRow}

/-- What goes and what is kept are in the one order that the policy puts the rows in. -/
theorem append_eq {order : List HeldRow} (cleansUp : cache.CleansUp now gone kept)
    (isOrder : order.Perm (cache.held.filter fun row => !isAged cache.database.settings now row))
    (ordered : order.Pairwise (GoesBefore cache.database.settings.eviction)) :
    gone ++ kept = order := by
  refine List.Perm.eq_of_pairwise (fun first later _ _ before behind => ?_) cleansUp.ordered ordered
    (cleansUp.rest.trans isOrder.symm)
  exact absurd behind (goesBefore_asymm before)

/-- No more rows go than have to go for the others to keep within the limits. -/
theorem length_gone_le (cleansUp : cache.CleansUp now gone kept) {count : Nat}
    (fits : Fit cache.database.settings ((gone ++ kept).drop count)) : gone.length ≤ count := by
  by_contra many
  have left : gone.drop count ≠ [] := by
    rw [ne_eq, List.drop_eq_nil_iff]
    exact many
  refine cleansUp.shortest _ _ (List.take_append_drop count gone).symm left ?_
  rwa [List.drop_append_of_le_length (Nat.le_of_lt (Nat.not_le.mp many))] at fits

end CleansUp

private theorem held_trim (cache : DatabaseCache) (evictedRows cleanupRuns : Nat) :
    held { cache with tables := cache.tables.map TableCache.trim, evictedRows, cleanupRuns } =
      cache.held := by
  have kept := TableCache.heldFrom_map TableCache.trim (fun _ => true)
    (fun _ => (List.filter_eq_self.mpr fun _ _ => rfl).symm) 0 cache.tables
  exact kept.trans (List.filter_eq_self.mpr fun _ _ => rfl)

private theorem Counted.trim {cache : DatabaseCache} (counted : cache.Counted)
    (evictedRows cleanupRuns : Nat) :
    Counted { cache with tables := cache.tables.map TableCache.trim, evictedRows, cleanupRuns } := by
  intro table membership
  obtain ⟨whole, isWhole, rfl⟩ := List.mem_map.mp membership
  have wholeCounted := counted whole isWhole
  exact TableCache.Adjusted.counted wholeCounted.trim wholeCounted

/-- Where the counters are true and no two rows were stored at once, a cleanup evicts what is
too old, then so few rows as it can, and leaves the counters true. -/
theorem cleansUp {cache : DatabaseCache} (counted : cache.Counted) (apart : cache.StoredApart)
    (now : Nat) :
    (cache.cleanUpAt now).2.Counted ∧ (cache.cleanUpAt now).2.clock = cache.clock ∧
      ∃ gone kept, cache.CleansUp now gone kept := by
  obtain ⟨sameAged, agedCounted, aged, young⟩ := evictAged_spec counted now
  have youngApart : (cache.evictAged now).2.StoredApart := by
    rw [StoredApart, young]
    exact (List.filter_sublist.map HeldRow.storedAt).nodup apart
  obtain ⟨sameExcess, leftCounted, order, gone, kept, isOrder, ordered, parts, excess, left⟩ :=
    evictExcess_spec agedCounted youngApart
  have same := sameAged.trans sameExcess
  have sameSettings : (cache.evictAged now).2.database = cache.database := by rw [sameAged]
  rw [sameSettings] at ordered parts
  rw [young] at isOrder
  have cleaned : (cache.cleanUpAt now).2.Counted := leftCounted.trim _ _
  have heldLeft : (cache.cleanUpAt now).2.held = (cache.evictAged now).2.evictExcess.2.held :=
    held_trim _ _ _
  have rows : (cache.cleanUpAt now).2.totalRows = kept.length := by
    rw [totalRows_eq, heldLeft, left.length_eq]
  have bytes : (cache.cleanUpAt now).2.totalBytes = (kept.map HeldRow.size).sum := by
    rw [totalBytes_eq cleaned, heldLeft, (left.map HeldRow.size).sum_eq]
  have evicted : (cache.cleanUpAt now).1 =
      (cache.held.filter (isAged cache.database.settings now)).length + gone.length := by
    rw [← aged, ← excess]
    rfl
  refine ⟨cleaned, ?_, gone, kept, ?_⟩
  · show (cache.evictAged now).2.evictExcess.2.clock = cache.clock
    rw [same]
  · refine ⟨parts.split ▸ isOrder, parts.split ▸ ordered, parts.shortest, heldLeft ▸ left,
      ?_, evicted, ?_, ?_⟩
    · rw [rows, bytes]
      exact parts.fit
    · have parted := (List.filter_append_perm (isAged cache.database.settings now)
        cache.held).length_eq
      have total := isOrder.length_eq
      rw [parts.split, List.length_append] at total
      rw [List.length_append] at parted
      rw [rows, evicted, totalRows_eq]
      omega
    · show (cache.evictAged now).2.evictExcess.2.evictedRows + _ = _
      rw [same]
      rfl

end DatabaseCache

end RelationalAccess
