import Mathlib.Data.List.Basic
import RelationalAccess.Proofs.Lists
import RelationalAccess.Proofs.Schema.Shape

/-!
Which kind the index has that a reference goes through. A column that is the whole primary key
is referred to by that. On any other column the first index that was declared serves, whatever
it was declared for; where there is none, the first relation that leads from the column or to
it has one made, and later relations find it there. So the index is of a candidate key only if
it was declared as one, or if the column was referred to before it referred itself.
-/

namespace RelationalAccess

/-- An index no two rows agree on: the primary key, or one that is declared unique. -/
def Index.IsCandidate (index : Index) : Prop := index.kind = .primaryKey ∨ index.kind = .unique

instance (index : Index) : Decidable index.IsCandidate := inferInstanceAs (Decidable (_ ∨ _))

namespace IndexKind

/-- The kind of an index after one was asked for that may be there already. -/
def reused (asked : IndexKind) : Option IndexKind → IndexKind
  | none => asked
  | some plain => if asked = foreignKey then foreignKey else plain
  | some kind => kind

/-- The kind of an index after one was asked for again and again. -/
def afterAsks (kind : Option IndexKind) (asks : List IndexKind) : Option IndexKind :=
  asks.foldl (fun kind asked => some (asked.reused kind)) kind

theorem afterAsks_append (kind : Option IndexKind) (earlier later : List IndexKind) :
    afterAsks kind (earlier ++ later) = afterAsks (afterAsks kind earlier) later :=
  List.foldl_append

theorem reused_eq_unique {asked : IndexKind} {kind : Option IndexKind} :
    asked.reused kind = unique ↔ kind = some unique ∨ kind = none ∧ asked = unique := by
  cases kind with
  | none => simp [reused]
  | some kind =>
    cases kind with
    | plain => by_cases asksForeign : asked = foreignKey <;> simp [reused, asksForeign]
    | primaryKey => simp [reused]
    | unique => simp [reused]
    | foreignKey => simp [reused]

/-- Who asks first decides whether an index is unique, unless it was there before. -/
theorem afterAsks_eq_unique {kind : Option IndexKind} {asks : List IndexKind} :
    afterAsks kind asks = some unique ↔
      kind = some unique ∨ kind = none ∧ asks.head? = some unique := by
  induction asks generalizing kind with
  | nil => simp [afterAsks]
  | cons asked others inductionHypothesis =>
    have step : afterAsks kind (asked :: others) = afterAsks (some (asked.reused kind)) others := rfl
    rw [step, inductionHypothesis, Option.some.injEq, reused_eq_unique]
    simp

end IndexKind

theorem Index.Grown.isOn_eq {old new : Index} (grown : old.Grown new) (column : Nat) :
    (decide (new.kind ≠ .primaryKey) && decide (new.columns = [column])) =
      (decide (old.kind ≠ .primaryKey) && decide (old.columns = [column])) := by
  simp only [ne_eq, grown.key, grown.columns]

namespace Table

/-- The kind of the index, other than the primary key, that serves for just one column. -/
def kindOn? (table : Table) (column : Nat) : Option IndexKind :=
  (table.indexOn? column).bind fun position => table.indices[position]?.map (·.kind)

/-- The index that a reference to one column goes through. -/
def referredIndex? (table : Table) (column : Nat) : Option Nat :=
  if table.primaryKeys = [column] then some 0 else table.indexOn? column

variable {old new table : Table} {column other position : Nat}

theorem indexOn?_inside (found : table.indexOn? column = some position) :
    ∃ index, table.indices[position]? = some index ∧ index.kind ≠ .primaryKey ∧
      index.columns = [column] := by
  obtain ⟨inside, suits, _⟩ := List.findIdx?_eq_some_iff_getElem.mp found
  exact ⟨_, List.getElem?_eq_getElem inside, by simpa using suits⟩

theorem kindOn?_of_indexOn? {index : Index} (found : table.indexOn? column = some position)
    (isThere : table.indices[position]? = some index) : table.kindOn? column = some index.kind := by
  rw [kindOn?, found, Option.bind_some, isThere, Option.map_some]

theorem kindOn?_of_indexOn?_none (missing : table.indexOn? column = none) :
    table.kindOn? column = none := by
  rw [kindOn?, missing, Option.bind_none]

/-- The primary keys of tables stay as they grow. -/
theorem AllGrown.primaryKeys {before after : List Table} (grown : AllGrown before after)
    (place : Nat) : after[place]?.map (·.primaryKeys) = before[place]?.map (·.primaryKeys) := by
  rw [← List.getElem?_map, ← List.getElem?_map, grown.map_eq Grown.primaryKeys]

/-- An index that serves for a column does so for good. -/
theorem Grown.indexOn? (grown : old.Grown new) (found : old.indexOn? column = some position) :
    new.indexOn? column = some position := by
  obtain ⟨inside, suits, first⟩ := List.findIdx?_eq_some_iff_getElem.mp found
  have each (place : Nat) (isInside : place < old.indices.length) :
      ∃ isInsideNow : place < new.indices.length,
        old.indices[place].Grown new.indices[place] := by
    obtain ⟨after, isThere, isGrown⟩ := grown.kept place _ (List.getElem?_eq_getElem isInside)
    obtain ⟨isInsideNow, rfl⟩ := List.getElem?_eq_some_iff.mp isThere
    exact ⟨isInsideNow, isGrown⟩
  obtain ⟨insideNow, isGrown⟩ := each position inside
  refine List.findIdx?_eq_some_iff_getElem.mpr ⟨insideNow, ?_, ?_⟩
  · rw [isGrown.isOn_eq]
    exact suits
  · intro earlier isEarlier
    obtain ⟨_, earlierGrown⟩ := each earlier (Nat.lt_trans isEarlier inside)
    rw [earlierGrown.isOn_eq]
    exact first earlier isEarlier

theorem Grown.referredIndex? (grown : old.Grown new)
    (found : old.referredIndex? column = some position) :
    new.referredIndex? column = some position := by
  unfold Table.referredIndex? at found ⊢
  rw [grown.primaryKeys]
  split
  · next isKey =>
    rw [if_pos isKey] at found
    exact found
  · next notKey =>
    rw [if_neg notKey] at found
    exact grown.indexOn? found

/-- Indices changed where they stand serve for the same columns. -/
theorem indexOn?_modify (table : Table) (position : Nat) {change : Index → Index}
    (keeps : ∀ index : Index, index.Grown (change index)) (column : Nat) :
    indexOn? { table with indices := table.indices.modify position change } column =
      table.indexOn? column := by
  have asBool (indices : List Index) (suits : Index → Bool) :
      indices.findIdx? suits = (indices.map suits).findIdx? fun isOn => isOn := by
    rw [List.findIdx?_map]
    rfl
  unfold indexOn?
  rw [asBool, asBool table.indices]
  congr 1
  exact map_modify_of_same (fun index => by simp [(keeps index).columns, (keeps index).key])
    table.indices position

/-- An index put behind the others serves for its column where no other does. -/
theorem indexOn?_append (table : Table) {index : Index} (notKey : index.kind ≠ .primaryKey)
    (column : Nat) :
    indexOn? { table with indices := table.indices ++ [index] } column =
      (table.indexOn? column).or
        (if index.columns = [column] then some table.indices.length else none) := by
  unfold indexOn?
  rw [List.findIdx?_append]
  congr 1
  by_cases isOn : index.columns = [column] <;> simp [isOn, notKey]

/-- A plain index that serves a foreign key is on the same columns. -/
theorem grown_promoted (index : Index) (kind : IndexKind) : index.Grown
    (if kind = .foreignKey ∧ index.kind = .plain then { index with kind := .foreignKey }
      else index) := by
  split
  · next promoted => exact ⟨rfl, rfl, by simp [promoted.2]⟩
  · exact .refl index

/-- A change of an index that is on another column, or that keeps its kind, changes no kind. -/
theorem kindOn?_modify (table : Table) (position : Nat) {change : Index → Index}
    (keeps : ∀ index : Index, index.Grown (change index))
    (sameKind : ∀ index, table.indices[position]? = some index → index.columns = [column] →
      (change index).kind = index.kind) :
    kindOn? { table with indices := table.indices.modify position change } column =
      table.kindOn? column := by
  rw [kindOn?, indexOn?_modify table position keeps, kindOn?]
  cases serves : table.indexOn? column with
  | none => rfl
  | some place =>
    obtain ⟨index, isThere, _, onColumn⟩ := indexOn?_inside serves
    dsimp only [Option.bind_some]
    by_cases here : position = place
    · subst here
      simp [isThere, sameKind index isThere onColumn]
    · simp [here]

theorem kindOn?_addPart (table : Table) (index relation : Nat) (side : Side) (column : Nat) :
    (table.addPart index relation side).kindOn? column = table.kindOn? column :=
  kindOn?_modify table index (fun _ => ⟨rfl, rfl, Iff.rfl⟩) fun _ _ _ => rfl

/-- The index that is asked for serves for its column from then on. -/
theorem indexOn?_indexFor {kind : IndexKind} (notKey : kind ≠ .primaryKey) (table : Table)
    (column : Nat) (name : String) :
    (table.indexFor column kind name).1.indexOn? column =
      some (table.indexFor column kind name).2 := by
  unfold indexFor
  cases found : table.indexOn? column with
  | none =>
    dsimp only
    rw [indexOn?_append table notKey, found, if_pos rfl]
    rfl
  | some position =>
    dsimp only
    rw [indexOn?_modify table position (grown_promoted · kind), found]

/-- An index that is asked for is made of the kind, or reused. -/
theorem kindOn?_indexFor_self {kind : IndexKind} (notKey : kind ≠ .primaryKey) (table : Table)
    (column : Nat) (name : String) :
    (table.indexFor column kind name).1.kindOn? column =
      some (kind.reused (table.kindOn? column)) := by
  have serves := indexOn?_indexFor notKey table column name
  cases found : table.indexOn? column with
  | none =>
    have atEnd : (table.indexFor column kind name).1.indices[(table.indexFor column kind name).2]? =
        some { name, table := table.id, columns := [column], kind } := by
      rw [indexFor, found]
      exact List.getElem?_concat_length
    rw [kindOn?_of_indexOn? serves atEnd, kindOn?_of_indexOn?_none found]
    rfl
  | some position =>
    obtain ⟨index, isThere, isNotKey, _⟩ := indexOn?_inside found
    have now : (table.indexFor column kind name).1.indices[(table.indexFor column kind name).2]? =
        some (if kind = .foreignKey ∧ index.kind = .plain then { index with kind := .foreignKey }
          else index) := by
      rw [indexFor, found]
      simp [isThere]
    rw [kindOn?_of_indexOn? serves now, kindOn?_of_indexOn? found isThere]
    congr 1
    cases isKind : index.kind with
    | primaryKey => exact absurd isKind isNotKey
    | unique => simp [isKind, IndexKind.reused]
    | foreignKey => simp [isKind, IndexKind.reused]
    | plain => by_cases asksForeign : kind = .foreignKey <;> simp [asksForeign, isKind, IndexKind.reused]

/-- An index on one column serves for no other. -/
theorem kindOn?_indexFor_of_ne {kind : IndexKind} (notKey : kind ≠ .primaryKey)
    (apart : other ≠ column) (table : Table) (name : String) :
    (table.indexFor column kind name).1.kindOn? other = table.kindOn? other := by
  unfold indexFor
  cases found : table.indexOn? column with
  | none =>
    have elsewhere : [column] ≠ [other] := by simpa using Ne.symm apart
    dsimp only
    rw [kindOn?, indexOn?_append table notKey, if_neg elsewhere, Option.or_none, kindOn?]
    cases serves : table.indexOn? other with
    | none => rfl
    | some position =>
      obtain ⟨index, isThere, _⟩ := indexOn?_inside serves
      rw [Option.bind_some, Option.bind_some,
        List.getElem?_append_left (List.getElem?_eq_some_iff.mp isThere).1]
  | some position =>
    apply kindOn?_modify table position (grown_promoted · kind)
    intro index isThere onOther
    -- the index that is reused is on another column
    obtain ⟨reused, isReused, _, onColumn⟩ := indexOn?_inside found
    obtain rfl := Option.some.inj (isThere.symm.trans isReused)
    exact absurd (List.singleton_inj.mp (onOther.symm.trans onColumn)) apart

end Table

namespace Linking

open Table

/-- The kind of the index that serves for just one column of one of some tables. -/
def kindAt? (tables : List Table) (place column : Nat) : Option IndexKind :=
  tables[place]?.bind (·.kindOn? column)

/-- A part of a relation goes through an index on just one column of a table. -/
def On (tables : List Table) (part : RelationPart) (place column : Nat) : Prop :=
  part.table = place ∧
    (tables[place]?.bind (·.indices[part.index]?)).map (·.columns) = some [column]

instance (tables : List Table) (part : RelationPart) (place column : Nat) :
    Decidable (On tables part place column) :=
  inferInstanceAs (Decidable (_ ∧ _))

/-- What a relation asks of a column: an index of a foreign key where it leads from the column,
and one of a candidate key where it leads to it. -/
def asksOf (tables : List Table) (place column : Nat) (relation : Relation) : List IndexKind :=
  (if On tables relation.foreignKey place column then [.foreignKey] else []) ++
    if On tables relation.candidateKey place column then [.unique] else []

/-- What relations ask of a column, in the order in which they are linked. -/
def asks (tables : List Table) (place column : Nat) (relations : List Relation) : List IndexKind :=
  relations.flatMap (asksOf tables place column)

/-- A relation leads to a column before any leads from it. -/
def ReferredFirst (tables : List Table) (relations : List Relation) (place column : Nat) : Prop :=
  ∃ before first after, relations = before ++ first :: after ∧
    On tables first.candidateKey place column ∧
    ∀ earlier ∈ before ++ [first], ¬ On tables earlier.foreignKey place column

theorem head?_asks {tables : List Table} {place column : Nat} {relations : List Relation} :
    (asks tables place column relations).head? = some .unique ↔
      ReferredFirst tables relations place column := by
  induction relations with
  | nil => simp [asks, ReferredFirst]
  | cons relation others inductionHypothesis =>
    rw [asks, List.flatMap_cons, asksOf]
    by_cases leads : On tables relation.foreignKey place column
    · rw [if_pos leads]
      apply iff_of_false (by simp)
      rintro ⟨before, first, after, split, _, none⟩
      cases before with
      | nil =>
        obtain rfl := (List.cons.inj split).1
        exact none relation List.mem_cons_self leads
      | cons head rest =>
        obtain rfl := (List.cons.inj split).1
        exact none relation List.mem_cons_self leads
    · rw [if_neg leads, List.nil_append]
      by_cases isReferred : On tables relation.candidateKey place column
      · rw [if_pos isReferred]
        apply iff_of_true (by simp)
        exact ⟨[], relation, others, rfl, isReferred, by simpa using leads⟩
      · rw [if_neg isReferred, List.nil_append]
        apply inductionHypothesis.trans
        constructor
        · rintro ⟨before, first, after, split, leadsTo, none⟩
          refine ⟨relation :: before, first, after, by rw [split]; rfl, leadsTo, ?_⟩
          exact List.forall_mem_cons.mpr ⟨leads, none⟩
        · rintro ⟨before, first, after, split, leadsTo, none⟩
          cases before with
          | nil =>
            obtain rfl := (List.cons.inj split).1
            exact absurd leadsTo isReferred
          | cons head rest =>
            have later := (List.forall_mem_cons.mp none).2
            exact ⟨rest, first, after, (List.cons.inj split).2, leadsTo, later⟩

section

variable {tables grown : List Table} {part : RelationPart} {name : String} {place column : Nat}

/-- The column of a part stays as tables grow. -/
theorem Through.on_iff_of_grown (through : Through tables part name)
    (isGrown : AllGrown tables grown) : On grown part place column ↔ On tables part place column := by
  obtain ⟨table, named, index, found, _, onTable, _⟩ := through
  obtain ⟨now, foundNow, tableGrown⟩ := isGrown.each _ table found
  obtain ⟨after, onTableNow, indexGrown⟩ := tableGrown.kept _ index onTable
  apply and_congr_right
  rintro rfl
  simp [found, foundNow, onTable, onTableNow, indexGrown.columns]

/-- A part is on the column that it was given by name, which the table had before it grew. -/
theorem Through.on_iff {table : Table} {named : Nat} (through : Through grown part name)
    (isGrown : AllGrown tables grown) (found : tables[part.table]? = some table)
    (isNamed : table.columnIndex? name = some named) :
    On grown part place column ↔ part.table = place ∧ named = column := by
  obtain ⟨now, position, index, foundNow, isPosition, onTable, onColumn⟩ := through
  obtain ⟨again, foundAgain, tableGrown⟩ := isGrown.each _ table found
  obtain rfl := Option.some.inj (foundNow.symm.trans foundAgain)
  rw [tableGrown.columnIndex?, isNamed] at isPosition
  obtain rfl := Option.some.inj isPosition
  apply and_congr_right
  rintro rfl
  simp [foundNow, onTable, onColumn]

end

section

variable {tables : List Table} {place column : Nat}

theorem kindAt?_modify (position : Nat) {change : Table → Table}
    (keeps : ∀ table : Table, (change table).kindOn? column = table.kindOn? column) :
    kindAt? (tables.modify position change) place column = kindAt? tables place column := by
  rw [kindAt?, kindAt?, List.getElem?_modify]
  cases tables[place]? with
  | none => rfl
  | some table => by_cases here : position = place <;> simp [here, keeps]

/-- A table that is asked for an index on one of its columns. -/
theorem kindAt?_onTable {position asked : Nat} {table : Table}
    (found : tables[position]? = some table) {change : Table → Table × Nat} {kind : IndexKind}
    (changes : position = place → (change table).1.kindOn? column =
      if asked = column then some (kind.reused (table.kindOn? column)) else table.kindOn? column) :
    kindAt? (onTable tables position change).1 place column =
      if position = place ∧ asked = column then some (kind.reused (kindAt? tables place column))
      else kindAt? tables place column := by
  rw [onTable_eq found, kindAt?, kindAt?, List.getElem?_modify]
  by_cases here : position = place
  · subst here
    simp [found, changes rfl]
  · cases tables[place]? <;> simp [here]

theorem kindOn?_indexFor (table : Table) (asked : Nat) {kind : IndexKind}
    (notKey : kind ≠ .primaryKey) (name : String) :
    (table.indexFor asked kind name).1.kindOn? column =
      if asked = column then some (kind.reused (table.kindOn? column)) else table.kindOn? column := by
  split
  · next here => rw [← here, kindOn?_indexFor_self notKey]
  · next apart => exact kindOn?_indexFor_of_ne notKey (Ne.symm apart) table name

variable {ends : Ends} {table : Table}

/-- The table that refers is asked for an index of a foreign key. -/
theorem kindAt?_referringIndex (found : tables[ends.referring]? = some table) (constraint : String) :
    kindAt? (referringIndex tables ends constraint).1 place column =
      if ends.referring = place ∧ ends.referringColumn = column then
        some (IndexKind.foreignKey.reused (kindAt? tables place column))
      else kindAt? tables place column :=
  kindAt?_onTable found fun _ =>
    kindOn?_indexFor (table.markForeignKey ends.referringColumn) _ (by decide) constraint

/-- The table that is referred to is asked for a unique index, but not on its whole key. -/
theorem kindAt?_referredIndex (found : tables[ends.referred]? = some table)
    (notKey : tables[place]?.map (·.primaryKeys) ≠ some [column]) (name : String) :
    kindAt? (referredIndex tables ends name).1 place column =
      if ends.referred = place ∧ ends.referredColumn = column then
        some (IndexKind.unique.reused (kindAt? tables place column))
      else kindAt? tables place column := by
  apply kindAt?_onTable found
  rintro rfl
  by_cases isKey : table.primaryKeys = [ends.referredColumn]
  · have apart : ends.referredColumn ≠ column := by
      rintro rfl
      exact notKey (by rw [found, Option.map_some, isKey])
    rw [if_pos isKey, if_neg apart]
  · rw [if_neg isKey]
    exact kindOn?_indexFor table _ (by decide) name

/-- What a reference goes through is what serves for its column from then on. -/
theorem referredIndex?_referredIndex (found : tables[ends.referred]? = some table) (name : String) :
    ∃ now, (referredIndex tables ends name).1[ends.referred]? = some now ∧
      now.referredIndex? ends.referredColumn = some (referredIndex tables ends name).2 := by
  unfold referredIndex
  rw [onTable_eq found, List.getElem?_modify_eq, found]
  refine ⟨_, rfl, ?_⟩
  dsimp only
  by_cases isKey : table.primaryKeys = [ends.referredColumn]
  · rw [if_pos isKey, Table.referredIndex?, if_pos isKey]
  · rw [if_neg isKey]
    have grown : (table.indexFor ends.referredColumn .unique name).1.primaryKeys = table.primaryKeys := by
      unfold indexFor
      split <;> rfl
    rw [Table.referredIndex?, grown, if_neg isKey]
    exact indexOn?_indexFor (by decide) table _ name

end

/-- What linking a foreign key does to the indices of candidate keys: on a column that is not
the whole key it leaves what the relation asks for, and the relation refers through what serves
for its column. -/
structure Serves (tables linked : List Table) (relation : Relation) : Prop where
  kinds : ∀ place column, tables[place]?.map (·.primaryKeys) ≠ some [column] →
    kindAt? linked place column =
      IndexKind.afterAsks (kindAt? tables place column) (asksOf linked place column relation)
  candidate : ∀ table column, linked[relation.candidateKey.table]? = some table →
    On linked relation.candidateKey relation.candidateKey.table column →
      table.referredIndex? column = some relation.candidateKey.index

theorem link_serves {tables linked : List Table} (indexed : ∀ table ∈ tables, table.KeyIndexed)
    {referring id : Nat} {name : String} {key : ForeignKeyDraft} {relation : Relation}
    (isLinked : link tables referring name key id = .ok (linked, relation)) :
    Serves tables linked relation := by
  have linkedWith := link_linked indexed isLinked
  obtain ⟨ends, found⟩ := ends?_of_link isLinked
  rw [link_eq found] at isLinked
  obtain ⟨rfl, ⟨table, isReferring, onReferring⟩, other, isReferred, _, onReferred⟩ :=
    ends?_spec found
  dsimp only at isLinked
  obtain ⟨isTables, isRelation⟩ := Prod.mk.inj (Except.ok.inj isLinked)
  have isCandidate : relation.candidateKey.table = ends.referred := by rw [← isRelation]
  -- the columns of the relation are those that the foreign key joins
  have isForeign : relation.foreignKey.table = ends.referring := linkedWith.joins.referring
  have foreignOn (place column : Nat) : On linked relation.foreignKey place column ↔
      ends.referring = place ∧ ends.referringColumn = column := by
    rw [linkedWith.joins.foreignKey.on_iff linkedWith.grown (isForeign ▸ isReferring) onReferring,
      isForeign]
  have candidateOn (place column : Nat) : On linked relation.candidateKey place column ↔
      ends.referred = place ∧ ends.referredColumn = column := by
    rw [linkedWith.joins.candidateKey.on_iff linkedWith.grown (isCandidate ▸ isReferred) onReferred,
      isCandidate]
  -- the table that is referred to, when it is asked for its index
  have between := (provided_referringIndex isReferring onReferring (constraintName name key)).grown
  obtain ⟨grownOther, foundOther, _⟩ := between.each _ other isReferred
  constructor
  · intro place column notKey
    have notKeyThen : (referringIndex tables ends (constraintName name key)).1[place]?.map
        (·.primaryKeys) ≠ some [column] := by
      rw [between.primaryKeys]
      exact notKey
    rw [← isTables, kindAt?_modify _ (kindOn?_addPart · _ _ _ _),
      kindAt?_modify _ (kindOn?_addPart · _ _ _ _),
      kindAt?_referredIndex foundOther notKeyThen, kindAt?_referringIndex isReferring, isTables,
      asksOf]
    simp only [foreignOn, candidateOn]
    split <;> split <;> rfl
  · intro now column foundNow isOn
    obtain ⟨_, rfl⟩ := (candidateOn _ _).mp isOn
    obtain ⟨provided, isProvided, refers⟩ := referredIndex?_referredIndex foundOther
      (candidateIndexName key)
    have later : AllGrown (referredIndex (referringIndex tables ends (constraintName name key)).1
        ends (candidateIndexName key)).1 linked := by
      rw [← isTables]
      exact (AllGrown.modify _ fun table _ => .addPart table _ _ _).trans
        (.modify _ fun table _ => .addPart table _ _ _)
    obtain ⟨after, isAfter, grown⟩ := later.each _ provided isProvided
    rw [isCandidate] at foundNow
    obtain rfl := Option.some.inj (foundNow.symm.trans isAfter)
    rw [grown.referredIndex? refers, ← isRelation]

/-- What linking some foreign keys has done to the indices of candidate keys. -/
structure AllServed (declared : List Table) (progress : Progress) : Prop where
  kinds : ∀ place column, declared[place]?.map (·.primaryKeys) ≠ some [column] →
    kindAt? progress.tables place column =
      IndexKind.afterAsks (kindAt? declared place column)
        (asks progress.tables place column progress.relations)
  candidates : ∀ relation ∈ progress.relations, ∀ table column,
    progress.tables[relation.candidateKey.table]? = some table →
      On progress.tables relation.candidateKey relation.candidateKey.table column →
        table.referredIndex? column = some relation.candidateKey.index

variable {declared : List Table} {keys : List (Nat × String × ForeignKeyDraft)}
  {progress : Progress}

/-- Relations ask for the same as tables grow. -/
theorem Sound.asks_of_grown (sound : Sound declared keys progress) {grown : List Table}
    (isGrown : AllGrown progress.tables grown) (place column : Nat) :
    asks grown place column progress.relations =
      asks progress.tables place column progress.relations := by
  apply List.flatMap_congr
  intro relation isRelation
  obtain ⟨key, _, joins⟩ := counterpart_left sound.joins isRelation
  simp only [asksOf, joins.foreignKey.on_iff_of_grown isGrown,
    joins.candidateKey.on_iff_of_grown isGrown]

theorem AllServed.step (served : AllServed declared progress) (sound : Sound declared keys progress)
    (indexed : ∀ table ∈ declared, table.KeyIndexed) (referring : Nat) (name : String)
    (key : ForeignKeyDraft) (faultless : (step progress referring name key).faults = []) :
    AllServed declared (step progress referring name key) := by
  have indexedNow := sound.indexed indexed
  obtain ⟨_, linked, relation, isLinked, stepped⟩ := step_of_faultless faultless
  rw [stepped]
  have grown := (link_linked indexedNow isLinked).grown
  have serves := link_serves indexedNow isLinked
  constructor
  · intro place column notKey
    have notKeyNow : progress.tables[place]?.map (·.primaryKeys) ≠ some [column] := by
      rw [sound.grown.primaryKeys]
      exact notKey
    rw [serves.kinds place column notKeyNow, served.kinds place column notKey,
      ← IndexKind.afterAsks_append, ← sound.asks_of_grown grown place column]
    congr 1
    dsimp only
    rw [asks, asks, List.flatMap_append, List.flatMap_singleton]
  · intro other isOther table column found isOn
    rcases List.mem_append.mp isOther with before | new
    · obtain ⟨key, _, joins⟩ := counterpart_left sound.joins before
      obtain ⟨old, _, _, wasThere, _⟩ := joins.candidateKey
      obtain ⟨now, isNow, isGrown⟩ := grown.each _ old wasThere
      obtain rfl := Option.some.inj (found.symm.trans isNow)
      have wasOn := (joins.candidateKey.on_iff_of_grown grown).mp isOn
      exact isGrown.referredIndex? (served.candidates other before old column wasThere wasOn)
    · obtain rfl := List.mem_singleton.mp new
      exact serves.candidate table column found isOn

/-- Where linking all foreign keys meets no fault, each relation refers through what serves for
its column, and of which kind that is the relations decide in turn. -/
theorem linkAll_served (indexed : ∀ table ∈ declared, table.KeyIndexed)
    (unlinked : ∀ table index, partsAt declared table index = []) (drafts : List TableDraft)
    (faultless : (linkAll declared drafts).faults = []) :
    AllServed declared (linkAll declared drafts) := by
  -- what is asked for earlier stays, as the relations are sound
  have both : Sound declared (foreignKeys drafts) (linkAll declared drafts) ∧
      AllServed declared (linkAll declared drafts) := by
    apply linkAll_induction (motive := fun keys progress =>
      Sound declared keys progress ∧ AllServed declared progress) _ _ drafts faultless
    · exact ⟨.start unlinked, fun _ _ _ => rfl, nofun⟩
    · rintro keys progress referring name key ⟨sound, served⟩ faultless
      exact ⟨sound.step indexed referring name key faultless,
        served.step sound indexed referring name key faultless⟩
  exact both.2

end Linking

namespace DatabaseDraft

open Linking Table

variable {draft : DatabaseDraft} {database : Database}

/-- The kind of the first index that a table declares on just one of its columns. -/
def declaredKind? (draft : DatabaseDraft) (place column : Nat) : Option IndexKind :=
  kindAt? draft.declaredTables place column

theorem Accepted.served (accepted : draft.Accepted database) :
    AllServed draft.declaredTables draft.linked :=
  linkAll_served accepted.indexed accepted.unlinked _ accepted.links

/-- A reference goes through an index of a candidate key if and only if it is to the whole
primary key, or to a column on which the first declared index is unique, or to one without a
declared index that a relation led to before any led from it. -/
theorem Accepted.isCandidate_iff (accepted : draft.Accepted database) {relation : Relation}
    (isRelation : relation ∈ database.relations) {table : Table} {column : Nat}
    (isTable : database.tables[relation.candidateKey.table]? = some table)
    (isOn : On database.tables relation.candidateKey relation.candidateKey.table column) :
    ∃ index, table.indices[relation.candidateKey.index]? = some index ∧ index.columns = [column] ∧
      (index.IsCandidate ↔
        table.primaryKeys = [column] ∨
          draft.declaredKind? relation.candidateKey.table column = some .unique ∨
            draft.declaredKind? relation.candidateKey.table column = none ∧
              ReferredFirst database.tables database.relations relation.candidateKey.table column) := by
  obtain ⟨_, _, _, shaped⟩ := accepted.table isTable
  have sound := accepted.sound
  have served := accepted.served
  have sameTables : database.tables = draft.linked.tables.map Table.resolve := by
    rw [accepted.result]
  have sameRelations : database.relations = draft.linked.relations := by
    rw [accepted.result]
  have resolved : AllGrown draft.linked.tables database.tables := by
    rw [sameTables]
    exact .map _ .resolve
  rw [sameRelations] at isRelation
  obtain ⟨key, _, joins⟩ := counterpart_left sound.joins isRelation
  -- the index that the reference goes through, before the types are resolved
  obtain ⟨linked, _, _, isLinked, _⟩ := joins.candidateKey
  obtain rfl : linked.resolve = table := by
    rw [sameTables, List.getElem?_map, isLinked] at isTable
    exact Option.some.inj isTable
  have refers := (Grown.resolve linked).referredIndex?
    (served.candidates relation isRelation linked column isLinked
      ((joins.candidateKey.on_iff_of_grown resolved).mp isOn))
  by_cases isKey : linked.resolve.primaryKeys = [column]
  · rw [Table.referredIndex?, if_pos isKey] at refers
    obtain ⟨index, atFront, kind, onKey⟩ := shaped.keyIndex (by rw [isKey]; exact List.cons_ne_nil _ _)
    rw [← Option.some.inj refers]
    exact ⟨index, atFront, onKey.trans isKey, iff_of_true (.inl kind) (.inl isKey)⟩
  · rw [Table.referredIndex?, if_neg isKey] at refers
    obtain ⟨index, isThere, notKey, onColumn⟩ := indexOn?_inside refers
    refine ⟨index, isThere, onColumn, ?_⟩
    have notKeyThen : draft.declaredTables[relation.candidateKey.table]?.map (·.primaryKeys) ≠
        some [column] := by
      rw [← accepted.grown.primaryKeys, isTable]
      simpa using isKey
    have kind := served.kinds relation.candidateKey.table column notKeyThen
    have isKind : kindAt? draft.linked.tables relation.candidateKey.table column =
        some index.kind := by
      rw [kindAt?, isLinked, Option.bind_some]
      exact kindOn?_of_indexOn? refers isThere
    rw [isKind, ← sound.asks_of_grown resolved, ← sameRelations] at kind
    rw [Index.IsCandidate, or_iff_right notKey, or_iff_right isKey, ← Option.some.injEq index.kind, kind,
      IndexKind.afterAsks_eq_unique, head?_asks]
    rfl

end DatabaseDraft

end RelationalAccess
