import RelationalAccess.Proofs.DataSource.FormLookups

/-!
What reads of a data source leave of the cache of one table, in front of a backend that matches
rows by bound forms. A bucket that they store has the keys of the rows that match then.
-/

namespace RelationalAccess

namespace DataSource

variable {World : Type} {backend : Backend World} {contents : World → Store} {store : Store}
  {origin : DataSource} {table : Table}

/-- Keys that are those of the stored rows with the bound form of a value. -/
def Named (dialect : Dialect) (table : Table) (store : Store) (position : Nat) (value : Value)
    (keys : List Keys) : Prop :=
  keys.Perm (table.keysWithForm dialect (store table.id) position
    (table.boundForm dialect position value))

/-- What is stored has not changed, and the cache of a table has only new buckets that rightly
name the rows of a value. -/
structure Tended (contents : World → Store) (store : Store) (table : Table) (origin : DataSource)
    (cache : TableCache) (state : DataSource × World) : Prop where
  dialect : state.1.dialect = origin.dialect
  database : state.1.cache.database = origin.cache.database
  world : contents state.2 = store
  cached : ∃ now, state.1.cache.table? table.id = some now ∧
    TableCache.Follows table (Named origin.dialect table store) cache now

section

variable {place : Nat} (shaped : table.Shaped place)
  (answers : backend.MatchesForms contents origin.dialect table)
  (inForm : table.InForm origin.dialect (store table.id))

include answers

private theorem unmoved : ∀ statement world, contents world = store →
    contents (backend.query statement world).2 = store :=
  fun statement world isStore => (answers.unmoved statement world).trans isStore

variable (store) in
/-- The source of any table leaves everything as it was. -/
private theorem supplies_anything (other : Table) :
    (rowSource backend other).Supplies (Still (contents · = store) origin) (fun _ => True)
      (fun _ _ _ => True)
      (fun condition => TableCache.Holding condition (Still (contents · = store) origin)) where
  rowsByKeys _ _ := (beside_leads (loadRows_still (unmoved answers) _)).weaken (fun _ => id)
    (fun _ _ holds => ⟨holds, fun _ _ => trivial⟩) fun _ => id
  keysByValue _ _ _ _ := (beside_leads (loadKeys_still (unmoved answers) _)).weaken (fun _ => id)
    (fun _ _ holds => ⟨holds, trivial⟩) fun _ => id
  rowsByValue _ _ _ _ := (beside_leads (loadRows_still (unmoved answers) _)).weaken (fun _ => id)
    (fun _ _ holds => ⟨holds, fun _ _ => trivial, trivial⟩) fun _ => id

variable (store) in
private theorem loadMatching_upholds (other : Table) {holds : TableCache → Prop}
    {named : Nat → Value → List Keys → Prop} (upheld : TableCache.Upheld holds (fun _ => True) named)
    (columns : List Nat) (values : List Value) :
    Preserves (TableCache.Holding holds (Still (contents · = store) origin))
      (loadMatching backend other columns values) := by
  refine TableCache.current_upheld.bind fun now => ?_
  refine (beside_leads (loadRows_still (unmoved answers) _)).bind fun rows => ?_
  exact TableCache.storeRead_upheld upheld _ fun _ _ => trivial

include shaped inForm

/-- The source of the table rightly names the rows of a value, unless it fails. -/
private theorem supplies_named :
    (rowSource backend table).Supplies (Still (contents · = store) origin) (fun _ => True)
      (Named origin.dialect table store)
      (fun condition => TableCache.Holding condition (Still (contents · = store) origin)) where
  rowsByKeys := (supplies_anything store answers table).rowsByKeys
  keysByValue condition position value notNull := by
    have loads : Leads (Still (contents · = store) origin)
        (loadKeys backend (.byValue table .keys position value)) _ _ :=
      loadKeys_replies (fun statement isStatement => by
        obtain ⟨column, found, bound, written⟩ := Query.written_of_byValue isStatement
        exact replies_keysWithForm shaped answers inForm found notNull
          (Table.write_eq_boundForm found ⟨bound, written⟩) (Query.keyed_of_statement isStatement)
          statement isStatement)
        fun _ _ => id
    refine (beside_leads loads).weaken (fun _ => id) ?_ fun _ => id
    intro keys state holds
    obtain ⟨kept, still, named⟩ := holds
    rw [Keys.map_mk_values] at named
    exact ⟨⟨kept, still⟩, named⟩
  rowsByValue condition position value notNull := by
    have loads : Leads (Still (contents · = store) origin)
        (loadRows backend (.byValue table .all position value)) _ _ :=
      loadRows_replies (fun statement isStatement => by
        obtain ⟨column, found, bound, written⟩ := Query.written_of_byValue isStatement
        exact replies_rowsWithForm answers inForm found notNull
          (Table.write_eq_boundForm found ⟨bound, written⟩) statement isStatement)
        fun _ _ => id
    refine (beside_leads loads).weaken (fun _ => id) ?_ fun _ => id
    intro rows state holds
    obtain ⟨kept, still, sameTable, named⟩ := holds
    refine ⟨⟨kept, still⟩, fun _ _ => trivial, ?_⟩
    have loaded : table.Loaded rows _ := ⟨sameTable, named⟩
    rw [Named, ← inForm.keysOf_withForm shaped]
    exact loaded.keys

variable {cache : TableCache} (isCached : origin.cache.table? table.id = some cache)

omit shaped answers inForm in
include isCached in
/-- A read through the cache of the table tends it, and one through that of another table does
nothing to it. -/
private theorem throughCache_tended {α : Type} {other : Table} {read : Loading (DataSource × World) α}
    (kept : TableCache.Kept table cache) (owned : Owns origin table) (ownedToo : Owns origin other)
    (here : other = table → Preserves (TableCache.Holding
      (TableCache.Follows table (Named origin.dialect table store) cache)
      (Still (contents · = store) origin)) read)
    (elsewhere :
      Preserves (TableCache.Holding (fun _ => True) (Still (contents · = store) origin)) read) :
    Leads (Still (contents · = store) origin) (throughCache other read)
      (fun _ => Tended contents store table origin cache)
      (Tended contents store table origin cache) := by
  rintro ⟨source, world⟩ still
  unfold throughCache
  dsimp only
  cases found : source.cache.table? other.id with
  | none =>
    exact ⟨still.dialect, by rw [still.cache], still.world, cache, still.cache ▸ isCached, .refl kept⟩
  | some before =>
    have wasThere : origin.cache.table? other.id = some before := still.cache ▸ found
    obtain ⟨_, stillThen⟩ : TableCache.Holding (fun _ => True) (Still (contents · = store) origin)
        (read (before, source, world)).2 := Leads.final elsewhere ⟨trivial, still⟩
    have follows (isHere : table.id = other.id) :
        TableCache.Follows table (Named origin.dialect table store) cache
          (read (before, source, world)).2.1 := by
      have same : other = table := Option.some.inj (ownedToo.symm.trans (isHere ▸ owned))
      subst same
      obtain rfl := Option.some.inj (isCached.symm.trans wasThere)
      have holding : TableCache.Holding
          (TableCache.Follows other (Named origin.dialect other store) cache)
          (Still (contents · = store) origin) (read (cache, source, world)).2 :=
        Leads.final (here rfl) ⟨.refl kept, still⟩
      exact holding.1
    have reached : Tended contents store table origin cache
        ({ (read (before, source, world)).2.2.1 with
            cache := (read (before, source, world)).2.2.1.cache.setTable other.id
              (read (before, source, world)).2.1 },
          (read (before, source, world)).2.2.2) := by
      refine ⟨stillThen.dialect, ?_, stillThen.world, ?_⟩
      · exact (congrArg DatabaseCache.database stillThen.cache :)
      dsimp only
      rw [stillThen.cache, DatabaseCache.table?_setTable wasThere]
      by_cases isHere : table.id = other.id
      · rw [if_pos isHere]
        exact ⟨_, rfl, follows isHere⟩
      · rw [if_neg isHere, isCached]
        exact ⟨_, rfl, TableCache.Follows.sameButRows (.refl kept) (kept.sameRows rfl rfl rfl) rfl⟩
    dsimp only
    revert reached
    rcases read (before, source, world) with ⟨_ | result, _⟩
    · exact id
    · exact id

include isCached

/-- Reads leave what is stored, and store only buckets that rightly name the rows of a value. -/
theorem reading_tends (kept : TableCache.Kept table cache) (owned : Owns origin table) :
    Reading backend origin (Still (contents · = store) origin)
      (Tended contents store table origin cache) where
  sameCache _ still := still.cache
  moves _ still := ⟨still.dialect, by rw [still.cache], still.world, cache,
    still.cache ▸ isCached, .refl kept⟩
  keys := loadKeys_still (unmoved answers)
  direct query _ _ := loadRows_still (unmoved answers) query
  cached {_ other _} ownedToo upholds := by
    apply throughCache_tended isCached kept owned ownedToo
    · intro same
      subst same
      exact upholds (TableCache.follows_upheld other _ cache) (supplies_named shaped answers inForm)
    · exact upholds TableCache.trivial_upheld (supplies_anything store answers other)
  matching {other} ownedToo columns values := by
    apply throughCache_tended isCached kept owned ownedToo
    · intro same
      subst same
      have upheld := TableCache.follows_upheld other (Named origin.dialect other store) cache
      exact loadMatching_upholds store answers other upheld columns values
    · exact loadMatching_upholds store answers other TableCache.trivial_upheld columns values

end

end DataSource

end RelationalAccess
