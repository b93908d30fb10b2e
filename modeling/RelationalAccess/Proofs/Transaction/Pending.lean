import RelationalAccess.Proofs.Cache.Rows
import RelationalAccess.Proofs.Cache.Tables
import RelationalAccess.Transaction

/-!
The caches of a database as they are once the pending changes of a transaction are
applied. Under keys that a change touches the last such change decides what is cached,
whatever was cached before; other keys are left alone.
-/

namespace RelationalAccess

/-- What a change of a table leaves cached under some keys. -/
def Change.leaves (change : Change) (keys : Keys) (cached : Option Row) : Option Row :=
  if change.after.map Row.keys = some keys then change.after
  else if change.before.map Row.keys = some keys then none
  else cached

/-- A change decides what is cached under some keys of a table. -/
def Change.Touches (change : Change) (position : Nat) (keys : Keys) : Prop :=
  change.table = position ∧
    (change.after.map Row.keys = some keys ∨ change.before.map Row.keys = some keys)

instance (change : Change) (position : Nat) (keys : Keys) :
    Decidable (change.Touches position keys) :=
  inferInstanceAs (Decidable (_ ∧ _))

theorem Change.leaves_of_not_touches {change : Change} {keys : Keys}
    (apart : ¬ change.Touches change.table keys) (cached : Option Row) :
    change.leaves keys cached = cached := by
  rw [leaves, if_neg fun isAfter => apart ⟨rfl, .inl isAfter⟩,
    if_neg fun isBefore => apart ⟨rfl, .inr isBefore⟩]

theorem Change.leaves_of_touches {change : Change} {position : Nat} {keys : Keys}
    (touches : change.Touches position keys) (cached other : Option Row) :
    change.leaves keys cached = change.leaves keys other := by
  rcases touches with ⟨_, isAfter | isBefore⟩
  · rw [leaves, leaves, if_pos isAfter, if_pos isAfter]
  · rw [leaves, leaves, if_pos isBefore, if_pos isBefore]

namespace DatabaseCache

/-- The caches once some changes are applied. -/
def withChanges (cache : DatabaseCache) (changes : List Change) : DatabaseCache :=
  (Transaction.applyChanges cache changes).2

section

variable (cache : DatabaseCache) (change : Change)

theorem applyChange_caches (position : Nat) :
    (Transaction.applyChange change cache).2.caches position = cache.caches position := by
  unfold Transaction.applyChange
  split
  · rfl
  · next table found =>
    exact caches_setTable found (TableCache.applyChange_enabled _ change.before change.after) position

theorem applyChange_database :
    (Transaction.applyChange change cache).2.database = cache.database := by
  unfold Transaction.applyChange
  split <;> rfl

variable {cache change}

/-- What is cached under some keys of a table whose rows are cached, after a change is applied. -/
theorem cached?_applyChange_of_caches {position : Nat} (enabled : cache.caches position = true)
    (keys : Keys) :
    (Transaction.applyChange change cache).2.cached? position keys =
      if position = change.table then change.leaves keys (cache.cached? position keys)
      else cache.cached? position keys := by
  unfold Transaction.applyChange
  split
  · next absent =>
    rw [if_neg]
    rintro rfl
    rw [caches, absent] at enabled
    cases enabled
  · next table found =>
    show (cache.setTable change.table (table.applyChange change.before change.after).2).cached?
      position keys = _
    rw [cached?_setTable found]
    split
    · next same =>
      subst same
      have isEnabled : table.enabled = true := by rwa [caches, found] at enabled
      have present : cache.cached? change.table keys = table.peek? keys := by rw [cached?, found]; rfl
      rw [present]
      exact TableCache.peek?_applyChange isEnabled change.before change.after keys
    · rfl

/-- What is cached under some keys after a change is applied. -/
theorem cached?_applyChange (tidy : cache.Tidy) (position : Nat) (keys : Keys) :
    (Transaction.applyChange change cache).2.cached? position keys =
      if position = change.table ∧ cache.caches position = true then
        change.leaves keys (cache.cached? position keys)
      else cache.cached? position keys := by
  by_cases enabled : cache.caches position = true
  · rw [cached?_applyChange_of_caches enabled]
    simp only [enabled, and_true]
  · rw [if_neg fun both => enabled both.2]
    unfold Transaction.applyChange
    split
    · rfl
    · next table found =>
      show (cache.setTable change.table (table.applyChange change.before change.after).2).cached?
        position keys = _
      rw [cached?_setTable found]
      split
      · next same =>
        subst same
        have isOff : table.enabled = false := by
          rw [caches, found] at enabled
          exact eq_false_of_ne_true enabled
        have nothing (other : Keys) : table.peek? other = none := by
          have absent := tidy.cached?_eq_none enabled other
          rwa [cached?, found] at absent
        rw [cached?, found]
        exact (TableCache.peek?_applyChange_of_disabled isOff nothing _ _ _).trans (nothing keys).symm
      · rfl

theorem Tidy.applyChange (tidy : cache.Tidy) : (Transaction.applyChange change cache).2.Tidy := by
  intro position keys row found
  rw [applyChange_caches]
  rw [cached?_applyChange tidy] at found
  split at found
  · next both => exact both.2
  · exact tidy position keys row found

end

section

variable (cache : DatabaseCache)

theorem withChanges_eq_foldl (changes : List Change) :
    cache.withChanges changes =
      changes.foldl (fun cache change => (Transaction.applyChange change cache).2) cache := by
  induction changes generalizing cache with
  | nil => rfl
  | cons first others inductionHypothesis =>
    exact inductionHypothesis (Transaction.applyChange first cache).2

theorem withChanges_concat (changes : List Change) (change : Change) :
    cache.withChanges (changes ++ [change]) =
      (Transaction.applyChange change (cache.withChanges changes)).2 := by
  rw [withChanges_eq_foldl, withChanges_eq_foldl, List.foldl_append]
  rfl

theorem withChanges_caches (changes : List Change) (position : Nat) :
    (cache.withChanges changes).caches position = cache.caches position := by
  induction changes generalizing cache with
  | nil => rfl
  | cons first others inductionHypothesis =>
    exact (inductionHypothesis (Transaction.applyChange first cache).2).trans
      (applyChange_caches cache first position)

theorem withChanges_database (changes : List Change) :
    (cache.withChanges changes).database = cache.database := by
  induction changes generalizing cache with
  | nil => rfl
  | cons first others inductionHypothesis =>
    exact (inductionHypothesis (Transaction.applyChange first cache).2).trans
      (applyChange_database cache first)

variable {cache}

theorem cached?_withChanges_of_caches {changes : List Change} {position : Nat}
    (enabled : cache.caches position = true) {keys : Keys}
    (apart : ∀ change ∈ changes, ¬ change.Touches position keys) :
    (cache.withChanges changes).cached? position keys = cache.cached? position keys := by
  induction changes generalizing cache with
  | nil => rfl
  | cons first others inductionHypothesis =>
    obtain ⟨apartNow, apartLater⟩ := List.forall_mem_cons.mp apart
    have stillEnabled := (applyChange_caches cache first position).trans enabled
    refine (inductionHypothesis stillEnabled apartLater).trans ?_
    rw [cached?_applyChange_of_caches enabled]
    split
    · next same => exact Change.leaves_of_not_touches (same ▸ apartNow) _
    · rfl

/-- The last change that touches some keys decides what is cached under them. -/
theorem cached?_withChanges_of_last {earlier later : List Change} {change : Change} {keys : Keys}
    (enabled : cache.caches change.table = true) (isAfter : change.after.map Row.keys = some keys)
    (isLast : ∀ other ∈ later, ¬ other.Touches change.table keys) :
    (cache.withChanges (earlier ++ change :: later)).cached? change.table keys = change.after := by
  have before : (cache.withChanges earlier).caches change.table = true := by
    rwa [withChanges_caches]
  have now := (applyChange_caches (cache.withChanges earlier) change change.table).trans before
  have joined : cache.withChanges (earlier ++ change :: later) =
      (Transaction.applyChange change (cache.withChanges earlier)).2.withChanges later := by
    rw [withChanges_eq_foldl, withChanges_eq_foldl, withChanges_eq_foldl, List.foldl_append]
    rfl
  rw [joined, cached?_withChanges_of_caches now isLast, cached?_applyChange_of_caches before,
    if_pos rfl, Change.leaves, if_pos isAfter]

theorem Tidy.withChanges (tidy : cache.Tidy) (changes : List Change) :
    (cache.withChanges changes).Tidy := by
  induction changes generalizing cache with
  | nil => exact tidy
  | cons first others inductionHypothesis => exact inductionHypothesis tidy.applyChange

/-- What is cached under keys that no change touches stays. -/
theorem cached?_withChanges_of_untouched (tidy : cache.Tidy) {changes : List Change} {position : Nat}
    {keys : Keys} (apart : ∀ change ∈ changes, ¬ change.Touches position keys) :
    (cache.withChanges changes).cached? position keys = cache.cached? position keys := by
  by_cases enabled : cache.caches position = true
  · exact cached?_withChanges_of_caches enabled apart
  · have stillOff : (cache.withChanges changes).caches position ≠ true := by
      rwa [withChanges_caches]
    rw [(tidy.withChanges changes).cached?_eq_none stillOff, tidy.cached?_eq_none enabled]

/-- What is cached under keys that a change touches does not depend on what was before. -/
theorem cached?_withChanges_congr (tidy : cache.Tidy) {other : DatabaseCache} (otherTidy : other.Tidy)
    {changes : List Change} {position : Nat} {keys : Keys}
    (sameCaches : other.caches position = cache.caches position)
    (decided : (∃ change ∈ changes, change.Touches position keys) ∨
      other.cached? position keys = cache.cached? position keys) :
    (other.withChanges changes).cached? position keys =
      (cache.withChanges changes).cached? position keys := by
  induction changes generalizing cache other with
  | nil =>
    rcases decided with ⟨change, membership, _⟩ | same
    · cases membership
    · exact same
  | cons first others inductionHypothesis =>
    have stillSame : (Transaction.applyChange first other).2.caches position =
        (Transaction.applyChange first cache).2.caches position := by
      rw [applyChange_caches, applyChange_caches, sameCaches]
    suffices stillDecided : (∃ change ∈ others, change.Touches position keys) ∨
        (Transaction.applyChange first other).2.cached? position keys =
          (Transaction.applyChange first cache).2.cached? position keys from
      inductionHypothesis tidy.applyChange otherTidy.applyChange stillSame stillDecided
    rw [cached?_applyChange otherTidy, cached?_applyChange tidy, sameCaches]
    by_cases now : first.Touches position keys
    · right
      split
      · exact Change.leaves_of_touches now _ _
      · next elsewhere =>
        have disabled : cache.caches position ≠ true := fun enabled =>
          elsewhere ⟨now.1.symm, enabled⟩
        rw [tidy.cached?_eq_none disabled, otherTidy.cached?_eq_none (sameCaches ▸ disabled)]
    · rcases decided with ⟨change, membership, touches⟩ | same
      · rcases List.mem_cons.mp membership with rfl | later
        · exact absurd touches now
        · exact .inl ⟨change, later, touches⟩
      · right
        rw [same]

end

end DatabaseCache

end RelationalAccess
