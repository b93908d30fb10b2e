import Mathlib.Algebra.Order.BigOperators.Group.List
import Mathlib.Algebra.Order.Group.Nat
import RelationalAccess.Proofs.Cache.Adjustments
import RelationalAccess.Proofs.Throughout

/-!
An index cache with a ceiling on its keys. After every act its buckets have no more keys than
they may. Where keys are stored, the fewest buckets go that have to, the oldest first; so the
bucket just stored stays exactly if it is not too large by itself.
-/

namespace RelationalAccess

namespace Bucket

/-- The keys of some buckets together. -/
def countKeys (entries : List (Value × Bucket)) : Nat :=
  (entries.map fun entry => entry.2.keys.length).sum

/-- Each bucket was stored before those behind it. -/
def OldestFirst (entries : List (Value × Bucket)) : Prop :=
  entries.Pairwise fun older newer => older.2.storedAt < newer.2.storedAt

/-- Buckets are parted into the fewest from the front without which the others have no more keys
than they may, and those others. -/
structure Parts (most : Nat) (entries gone kept : List (Value × Bucket)) : Prop where
  split : entries = gone ++ kept
  fit : countKeys kept ≤ most
  shortest : ∀ fewer more, gone = fewer ++ more → more ≠ [] → most < countKeys (more ++ kept)

theorem length_le_countKeys {entries : List (Value × Bucket)} {entry : Value × Bucket}
    (listed : entry ∈ entries) : entry.2.keys.length ≤ countKeys entries :=
  List.le_sum_of_mem (List.mem_map.mpr ⟨entry, listed, rfl⟩)

/-- The newest bucket is kept exactly if it has no more keys than there may be. -/
theorem Parts.newest_mem_kept_iff {most : Nat} {entries gone kept : List (Value × Bucket)}
    (parts : Parts most entries gone kept) (oldestFirst : OldestFirst entries)
    {newest : Value × Bucket} (listed : newest ∈ entries)
    (isNewest : ∀ entry ∈ entries, entry = newest ∨ entry.2.storedAt < newest.2.storedAt) :
    newest ∈ kept ↔ newest.2.keys.length ≤ most := by
  refine ⟨fun isKept => Nat.le_trans (length_le_countKeys isKept) parts.fit, fun fits => ?_⟩
  by_contra notKept
  obtain rfl := parts.split
  obtain ⟨goneFirst, _, apart⟩ := List.pairwise_append.mp oldestFirst
  have isGone : newest ∈ gone := (List.mem_append.mp listed).resolve_right notKept
  -- nothing is behind the newest bucket, so it goes last, and only if it does not fit alone
  have noneKept : kept = [] := by
    refine List.eq_nil_iff_forall_not_mem.mpr fun entry isKept => ?_
    have later := apart newest isGone entry isKept
    rcases isNewest entry (List.mem_append_right _ isKept) with rfl | earlier
    · exact notKept isKept
    · omega
  obtain ⟨before, behind, rfl⟩ := List.append_of_mem isGone
  have noneBehind : behind = [] := by
    refine List.eq_nil_iff_forall_not_mem.mpr fun entry isBehind => ?_
    have later := (List.pairwise_cons.mp (List.pairwise_append.mp goneFirst).2.1).1 entry isBehind
    rcases isNewest entry (by simp [isBehind]) with rfl | earlier <;> omega
  subst noneKept noneBehind
  have tooLarge := parts.shortest before [newest] rfl (List.cons_ne_nil _ _)
  simp only [countKeys, List.append_nil, List.map_cons, List.map_nil, List.sum_singleton]
    at tooLarge
  omega

end Bucket

namespace IndexCache

open Bucket (countKeys OldestFirst Parts)

/-- What can be done to an index cache. -/
inductive Act where
  | insert (now : Nat) (value : Value) (keys : List Keys)
  | replace (now : Nat) (value : Value) (keys : List Keys)
  | remove (value : Value)
  | evictBefore (cutoff : Nat)
  | trim
  | clear

def perform (index : IndexCache) : Act → IndexCache
  | .insert now value keys => (index.insert now value keys).2
  | .replace now value keys => index.replace now value keys
  | .remove value => index.remove value
  | .evictBefore cutoff => (index.evictBefore cutoff).2
  | .trim => index.trim
  | .clear => index.clear

/-- All buckets were stored before a time. -/
def StoredBefore (index : IndexCache) (now : Nat) : Prop :=
  ∀ entry ∈ index.buckets.list, entry.2.storedAt < now

instance (index : IndexCache) (now : Nat) : Decidable (index.StoredBefore now) :=
  inferInstanceAs (Decidable (∀ entry ∈ index.buckets.list, entry.2.storedAt < now))

/-- If the act stores keys, it does so later than all keys that are there were stored. -/
def StoresLater (index : IndexCache) : Act → Prop
  | .insert now value _ => index.get? value = none → index.StoredBefore now
  | .replace now _ _ => index.StoredBefore now
  | _ => True

/-- An index cache whose counter is true, whose buckets were stored one after another, and which
may have so many keys at most. -/
structure Limited (most : Nat) (index : IndexCache) : Prop where
  ceiling : index.maxKeys = some most
  counted : index.Counted
  apart : index.buckets.list.Pairwise fun first second => first.2.storedAt ≠ second.2.storedAt

variable {most : Nat} {index : IndexCache}

theorem heldKeys_eq_countKeys (index : IndexCache) :
    index.heldKeys = countKeys index.buckets.list := rfl

theorem remove_maxKeys (index : IndexCache) (value : Value) :
    (index.remove value).maxKeys = index.maxKeys := by
  unfold remove
  split <;> rfl

theorem remove_sublist (index : IndexCache) (value : Value) :
    (index.remove value).buckets.list.Sublist index.buckets.list := by
  cases found : index.buckets.get? value with
  | none => rw [remove_of_absent found]
  | some bucket =>
    rw [remove_of_found found]
    exact List.filter_sublist

namespace Limited

theorem remove (limited : Limited most index) (value : Value) :
    Limited most (index.remove value) where
  ceiling := (index.remove_maxKeys value).trans limited.ceiling
  counted := Adjusted.counted (limited.counted.remove value) limited.counted
  apart := limited.apart.sublist (index.remove_sublist value)

theorem stored (limited : Limited most index) {now : Nat} (later : index.StoredBefore now)
    (value : Value) (keys : List Keys) : Limited most (index.stored now value keys) where
  ceiling := limited.ceiling
  counted := (Adjusts.store now keys (limited.counted.covers value)).counted limited.counted
  apart := by
    refine List.pairwise_cons.mpr ⟨fun entry listed => ?_, limited.apart.sublist List.filter_sublist⟩
    exact Nat.ne_of_gt (later entry (List.mem_of_mem_filter listed))

end Limited

/-- Buckets that are taken out in an order for as long as there are too many keys are the fewest
from the front without which there are not. -/
theorem trimInOrder_parts (limited : Limited most index) {order : List (Value × Bucket)}
    (inOrder : order.Perm index.buckets.list) :
    Limited most (index.trimInOrder most (order.map Prod.fst)) ∧
      ∃ gone kept, Parts most order gone kept ∧
        (index.trimInOrder most (order.map Prod.fst)).buckets.list.Perm kept := by
  induction order generalizing index with
  | nil =>
    refine ⟨limited, [], [], ⟨rfl, Nat.zero_le _, ?_⟩, inOrder.symm⟩
    intro fewer more none isMore
    exact absurd (List.append_eq_nil_iff.mp none.symm).2 isMore
  | cons oldest others inductionHypothesis =>
    have total : index.keyCount = countKeys (oldest :: others) := by
      rw [limited.counted, heldKeys_eq_countKeys, countKeys, countKeys]
      exact (inOrder.map _).sum_eq.symm
    have found : index.buckets.get? oldest.1 = some oldest.2 :=
      index.buckets.get?_eq_some_iff.mpr (inOrder.mem_iff.mp List.mem_cons_self)
    rw [List.map_cons, trimInOrder]
    split
    · next fits =>
      refine ⟨limited, [], oldest :: others, ⟨rfl, total ▸ fits, ?_⟩, inOrder.symm⟩
      intro fewer more none isMore
      exact absurd (List.append_eq_nil_iff.mp none.symm).2 isMore
    · next tooMany =>
      have othersLeft : others.Perm (index.remove oldest.1).buckets.list := by
        rw [remove_of_found found]
        exact (inOrder.trans (index.buckets.perm_cons_erase found)).cons_inv
      obtain ⟨stillLimited, gone, kept, parts, left⟩ :=
        inductionHypothesis (limited.remove oldest.1) othersLeft
      refine ⟨stillLimited, oldest :: gone, kept,
        ⟨congrArg (oldest :: ·) parts.split, parts.fit, ?_⟩, left⟩
      intro fewer more isSplit isMore
      cases fewer with
      | nil =>
        have all : more ++ kept = oldest :: others := by
          rw [parts.split, ← List.cons_append, isSplit]
          rfl
        rw [all]
        omega
      | cons first fewer =>
        obtain ⟨_, rest⟩ := List.cons.inj isSplit
        exact parts.shortest fewer more rest isMore

/-- An index cache is trimmed of the fewest buckets that have to go, the oldest first. -/
structure Trims (most : Nat) (index trimmed : IndexCache) (order gone kept : List (Value × Bucket)) :
    Prop where
  all : order.Perm index.buckets.list
  oldestFirst : OldestFirst order
  parts : Parts most order gone kept
  left : trimmed.buckets.list.Perm kept

/-- Buckets are trimmed in some order, each of them stored before those behind it. -/
theorem Limited.exists_order (limited : Limited most index) :
    ∃ order : List (Value × Bucket), order.Perm index.buckets.list ∧ OldestFirst order ∧
      index.trim = index.trimInOrder most (order.map Prod.fst) := by
  let stored (first second : Value × Bucket) : Bool :=
    decide (first.2.storedAt ≤ second.2.storedAt)
  have isOrder : (index.buckets.list.mergeSort stored).Perm index.buckets.list :=
    List.mergeSort_perm _ _
  have sorted : (index.buckets.list.mergeSort stored).Pairwise fun first second =>
      stored first second = true := by
    refine List.pairwise_mergeSort (fun _ _ _ earlier later => ?_) (fun first second => ?_) _
    · exact decide_eq_true (Nat.le_trans (of_decide_eq_true earlier) (of_decide_eq_true later))
    · simpa [stored] using Nat.le_total first.2.storedAt second.2.storedAt
  have apart := (isOrder.pairwise_iff Ne.symm).mpr limited.apart
  have oldestFirst : OldestFirst (index.buckets.list.mergeSort stored) :=
    (sorted.and apart).imp fun ⟨notLater, differ⟩ =>
      Nat.lt_of_le_of_ne (of_decide_eq_true notLater) differ
  refine ⟨_, isOrder, oldestFirst, ?_⟩
  rw [trim, limited.ceiling]
  rfl

theorem Limited.trim_trims (limited : Limited most index) :
    Limited most index.trim ∧ ∃ order gone kept, Trims most index index.trim order gone kept := by
  obtain ⟨order, isOrder, oldestFirst, isTrim⟩ := limited.exists_order
  obtain ⟨stillLimited, gone, kept, parts, left⟩ := trimInOrder_parts limited isOrder
  rw [isTrim]
  exact ⟨stillLimited, order, gone, kept, isOrder, oldestFirst, parts, left⟩

/-- There is one order only in which each bucket was stored before those behind it. -/
theorem Limited.trim_eq (limited : Limited most index) {order : List (Value × Bucket)}
    (isOrder : order.Perm index.buckets.list) (oldestFirst : OldestFirst order) :
    index.trim = index.trimInOrder most (order.map Prod.fst) := by
  obtain ⟨other, isOther, otherFirst, isTrim⟩ := limited.exists_order
  have same : other = order :=
    (isOther.trans isOrder.symm).eq_of_pairwise
      (fun _ _ _ _ before after => absurd before (Nat.lt_asymm after)) otherFirst oldestFirst
  rw [isTrim, same]

/-- Nothing goes where there are no more keys with those that are stored than there may be. -/
theorem replace_of_keyCount_le (index : IndexCache) {now : Nat} {value : Value} {keys : List Keys}
    (ceiling : index.maxKeys = some most) (fits : (index.stored now value keys).keyCount ≤ most) :
    index.replace now value keys = index.stored now value keys := by
  have ceilingThen : (index.stored now value keys).maxKeys = some most := ceiling
  rw [replace_eq, trim, ceilingThen]
  cases (index.stored now value keys).byAge with
  | nil => rfl
  | cons oldest others => exact if_pos fits

theorem Trims.fits {trimmed : IndexCache} {order gone kept : List (Value × Bucket)}
    (trims : Trims most index trimmed order gone kept) : trimmed.heldKeys ≤ most := by
  have same : trimmed.heldKeys = countKeys kept := (trims.left.map _).sum_eq
  rw [same]
  exact trims.parts.fit

/-- What storing keys for a value leaves of an index cache: of the buckets that there are with
the new one so many go, the oldest first, as have to; and the new one is not among them exactly if
it has no more keys than there may be. -/
structure StoresWithin (most : Nat) (index after : IndexCache) (now : Nat) (value : Value)
    (keys : List Keys) : Prop where
  trims : ∃ order gone kept, Trims most (index.stored now value keys) after order gone kept
  survives : after.get? value = some keys ↔ keys.length ≤ most

theorem Limited.replace (limited : Limited most index) {now : Nat} (later : index.StoredBefore now)
    (value : Value) (keys : List Keys) :
    Limited most (index.replace now value keys) ∧
      StoresWithin most index (index.replace now value keys) now value keys := by
  have whole := limited.stored later value keys
  obtain ⟨stillLimited, order, gone, kept, trims⟩ := whole.trim_trims
  rw [replace_eq]
  refine ⟨stillLimited, ⟨order, gone, kept, trims⟩, ?_⟩
  have stays {bucket : Bucket} : (index.stored now value keys).trim.buckets.get? value = some bucket ↔
      (value, bucket) ∈ kept :=
    (Entries.get?_eq_some_iff _).trans trims.left.mem_iff
  have isStored : (value, (⟨keys, now⟩ : Bucket)) ∈ order :=
    trims.all.mem_iff.mpr List.mem_cons_self
  have isNewest : ∀ entry ∈ order, entry = (value, ⟨keys, now⟩) ∨ entry.2.storedAt < now := by
    intro entry listed
    rcases List.mem_cons.mp (trims.all.mem_iff.mp listed) with isNew | old
    · exact .inl isNew
    · exact .inr (later entry (List.mem_of_mem_filter old))
  rw [← trims.parts.newest_mem_kept_iff trims.oldestFirst isStored isNewest, ← stays]
  constructor
  · intro found
    obtain ⟨bucket, isThere, rfl⟩ := Option.map_eq_some_iff.mp found
    have wasStored : (value, bucket) ∈ (index.stored now value bucket.keys).buckets.list := by
      refine trims.all.mem_iff.mp ?_
      rw [trims.parts.split]
      exact List.mem_append_right _ (stays.mp isThere)
    have isNew := (Entries.get?_eq_some_iff _).mpr wasStored
    rw [IndexCache.stored, Entries.get?_put_self] at isNew
    rw [isThere, ← isNew]
  · intro found
    rw [get?, found]
    rfl

/-- Every act keeps an index cache within its limit. -/
theorem Limited.perform (limited : Limited most index) (fits : index.heldKeys ≤ most) (act : Act)
    (later : index.StoresLater act) :
    Limited most (index.perform act) ∧ (index.perform act).heldKeys ≤ most := by
  have removes (value : Value) {index : IndexCache} (fits : index.heldKeys ≤ most) :
      (index.remove value).heldKeys ≤ most := by
    refine Nat.le_trans ?_ fits
    exact ((index.remove_sublist value).map _).sum_le_sum fun _ _ => Nat.zero_le _
  cases act with
  | insert now value keys =>
    show Limited most (index.insert now value keys).2 ∧ (index.insert now value keys).2.heldKeys ≤ most
    cases found : index.get? value with
    | some present =>
      rw [insert, found]
      exact ⟨limited, fits⟩
    | none =>
      rw [insert, found]
      obtain ⟨stillLimited, ⟨_, _, _, trims⟩, _⟩ := limited.replace (later found) value keys
      exact ⟨stillLimited, trims.fits⟩
  | replace now value keys =>
    obtain ⟨stillLimited, ⟨_, _, _, trims⟩, _⟩ := limited.replace later value keys
    exact ⟨stillLimited, trims.fits⟩
  | remove value => exact ⟨limited.remove value, removes value fits⟩
  | evictBefore cutoff =>
    show Limited most (index.evictBefore cutoff).2 ∧ (index.evictBefore cutoff).2.heldKeys ≤ most
    unfold evictBefore
    generalize List.map Prod.fst _ = stale
    dsimp only
    induction stale generalizing index with
    | nil => exact ⟨limited, fits⟩
    | cons value stale inductionHypothesis =>
      exact inductionHypothesis (limited.remove value) (removes value fits) trivial
  | trim =>
    obtain ⟨stillLimited, _, _, _, trims⟩ := limited.trim_trims
    exact ⟨stillLimited, trims.fits⟩
  | clear => exact ⟨⟨limited.ceiling, rfl, .nil⟩, Nat.zero_le _⟩

/-- Whatever is done to an index cache, one thing stored later than the other, its buckets have
no more keys than they may, as many as are counted. Keys that are then stored for a value, by
putting them in place of others or where there are none, take the place of the fewest oldest
buckets that have to go; where there are some, they are what is returned, and nothing changes. -/
theorem limited_throughout (column most : Nat) {acts : List Act}
    (inOrder : Throughout perform StoresLater (empty column (some most)) acts) :
    let index := acts.foldl perform (empty column (some most))
    (index.heldKeys ≤ most ∧ index.keyCount = index.heldKeys) ∧
      (∀ now value keys, index.StoredBefore now →
        StoresWithin most index (index.replace now value keys) now value keys) ∧
      (∀ now value keys, index.get? value = none → index.StoredBefore now →
        (index.insert now value keys).1 = keys ∧
          StoresWithin most index (index.insert now value keys).2 now value keys) ∧
      ∀ now value keys present, index.get? value = some present →
        index.insert now value keys = (present, index) := by
  intro index
  have start : Limited most (empty column (some most)) ∧
      (empty column (some most)).heldKeys ≤ most := ⟨⟨rfl, rfl, .nil⟩, Nat.zero_le _⟩
  have keeps (state : IndexCache) (act : Act) (before : Limited most state ∧ state.heldKeys ≤ most)
      (later : state.StoresLater act) :
      Limited most (state.perform act) ∧ (state.perform act).heldKeys ≤ most :=
    before.1.perform before.2 act later
  obtain ⟨limited, fits⟩ := Throughout.keeps keeps start inOrder
  refine ⟨⟨fits, limited.counted⟩, fun now value keys later => (limited.replace later value keys).2,
    fun now value keys absent later => ?_, fun now value keys present found => ?_⟩
  · rw [insert, absent]
    exact ⟨rfl, (limited.replace later value keys).2⟩
  · rw [insert, found]

/-- So many keys of one value each. -/
def keysUpTo (count : Nat) : List Keys := (List.range count).map fun number => ⟨[.int (.ofNat number)]⟩

/-- Three keys at most, in three buckets of which the last has none. -/
def threeBuckets : List Act :=
  [.insert 1 (.int 1) (keysUpTo 2), .replace 2 (.int 2) (keysUpTo 1), .insert 3 (.int 3) []]

/-- The buckets as they are stored one after the other. -/
def inOne : IndexCache := (empty 0 (some 3)).stored 1 (.int 1) (keysUpTo 2)

def inTwo : IndexCache := inOne.stored 2 (.int 2) (keysUpTo 1)

def inThree : IndexCache := inTwo.stored 3 (.int 3) []

private theorem inOne_eq : perform (empty 0 (some 3)) (.insert 1 (.int 1) (keysUpTo 2)) = inOne := by
  have within : inOne.keyCount ≤ 3 := by decide
  exact replace_of_keyCount_le (empty 0 (some 3)) rfl within

private theorem inTwo_eq : perform inOne (.replace 2 (.int 2) (keysUpTo 1)) = inTwo := by
  have within : inTwo.keyCount ≤ 3 := by decide
  exact replace_of_keyCount_le inOne rfl within

private theorem inThree_eq : perform inTwo (.insert 3 (.int 3) []) = inThree := by
  have within : inThree.keyCount ≤ 3 := by decide
  exact replace_of_keyCount_le inTwo rfl within

/-- All three buckets stay. -/
private theorem threeBuckets_eq : threeBuckets.foldl perform (empty 0 (some 3)) = inThree := by
  rw [threeBuckets, List.foldl_cons, inOne_eq, List.foldl_cons, inTwo_eq, List.foldl_cons,
    inThree_eq, List.foldl_nil]

/-- Two further keys take the place of the oldest bucket and leave the empty one. Four do not stay
themselves, and nothing does. -/
theorem limited_throughout_threeBuckets :
    Throughout perform StoresLater (empty 0 (some 3)) threeBuckets ∧
      ∃ index, index = threeBuckets.foldl perform (empty 0 (some 3)) ∧
        index.heldKeys = 3 ∧ index.StoredBefore 4 ∧
        (index.replace 4 (.int 4) (keysUpTo 2)).get? (.int 4) = some (keysUpTo 2) ∧
        (index.replace 4 (.int 4) (keysUpTo 2)).get? (.int 1) = none ∧
        (index.replace 4 (.int 4) (keysUpTo 2)).get? (.int 3) = some [] ∧
        (index.insert 4 (.int 4) (keysUpTo 4)).2.get? (.int 4) ≠ some (keysUpTo 4) ∧
        index.insert 4 (.int 2) (keysUpTo 3) = (keysUpTo 1, index) := by
  have inOrder : Throughout perform StoresLater (empty 0 (some 3)) threeBuckets := by
    rw [threeBuckets, Throughout, inOne_eq, Throughout, inTwo_eq, Throughout]
    refine ⟨fun _ => ?_, ?_, fun _ => ?_, trivial⟩
    · show StoredBefore _ 1
      decide
    · show StoredBefore inOne 2
      decide
    · show StoredBefore inTwo 3
      decide
  obtain ⟨_, replaced, inserted, kept⟩ := limited_throughout 0 3 inOrder
  rw [threeBuckets_eq] at replaced inserted kept
  have before : inThree.StoredBefore 4 := by decide
  have held : Limited 3 inThree := ⟨rfl, rfl, by decide⟩
  have limited := held.stored before (.int 4) (keysUpTo 2)
  have trimmed : inThree.replace 4 (.int 4) (keysUpTo 2) = _ :=
    (replace_eq ..).trans (limited.trim_eq (List.reverse_perm _) (by unfold OldestFirst; decide))
  refine ⟨inOrder, inThree, threeBuckets_eq.symm, rfl, before, ?_, ?_, ?_, ?_, ?_⟩
  · exact (replaced 4 (.int 4) (keysUpTo 2) before).survives.mpr (by decide)
  · rw [trimmed]
    rfl
  · rw [trimmed]
    rfl
  · intro survived
    exact absurd ((inserted 4 (.int 4) (keysUpTo 4) rfl before).2.survives.mp survived) (by decide)
  · exact kept 4 (.int 2) (keysUpTo 3) (keysUpTo 1) rfl

end IndexCache

end RelationalAccess
