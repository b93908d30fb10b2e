import RelationalAccess.Proofs.Schema.Growth
import Mathlib.Data.List.Forall2
import Mathlib.Data.List.Induction

/-!
What linking foreign keys leaves behind: a relation for each key, whose parts go through
indices on just the columns that the key names, and on every index a list of exactly the
parts that go through it. Both are kept by every key that is linked after.
-/

namespace RelationalAccess

/-- The parts of a relation. -/
def Relation.parts (relation : Relation) : List RelationPart :=
  [relation.foreignKey, relation.candidateKey]

/-- A relation at its place among the relations, which its parts know. -/
structure Relation.Numbered (position : Nat) (relation : Relation) : Prop where
  id : relation.id = position
  number : ∀ side, (relation.part side).relation = position
  side : ∀ side, (relation.part side).side = side

/-- The parts that are listed on an index of a table. -/
def Table.partsAt (table : Table) (index : Nat) : List (Nat × Side) :=
  (table.indices[index]?.map (·.parts)).getD []

namespace Linking

open Table

theorem mem_foreignKeys {drafts : List TableDraft} {declared : Nat × String × ForeignKeyDraft} :
    declared ∈ foreignKeys drafts ↔ ∃ table, drafts[declared.1]? = some table ∧
      table.name = declared.2.1 ∧ declared.2.2 ∈ table.foreignKeys := by
  obtain ⟨position, name, key⟩ := declared
  simp only [foreignKeys, List.mem_flatMap, List.mem_map, Prod.exists, List.mem_zipIdx_iff_getElem?,
    Prod.mk.injEq]
  constructor
  · rintro ⟨table, _, found, _, isKey, rfl, rfl, rfl⟩
    exact ⟨table, found, rfl, isKey⟩
  · rintro ⟨table, found, rfl, isKey⟩
    exact ⟨table, position, found, key, isKey, rfl, rfl, rfl⟩

/-- The parts that are listed on an index of one of some tables. -/
def partsAt (tables : List Table) (table index : Nat) : List (Nat × Side) :=
  (tables[table]?.map (·.partsAt index)).getD []

/-- The parts of relations that go through an index, as the index lists them. -/
def partsThrough (relations : List Relation) (table index : Nat) : List (Nat × Side) :=
  ((relations.flatMap Relation.parts).filter fun part =>
    decide (part.table = table ∧ part.index = index)).map fun part => (part.relation, part.side)

/-- A part goes through an index on just the column with a name. -/
def Through (tables : List Table) (part : RelationPart) (name : String) : Prop :=
  ∃ table column index, tables[part.table]? = some table ∧ table.columnIndex? name = some column ∧
    table.indices[part.index]? = some index ∧ index.columns = [column]

/-- A relation is what a foreign key, declared by a table at a position, declares. -/
structure Joins (tables : List Table) (declared : Nat × String × ForeignKeyDraft)
    (relation : Relation) : Prop where
  referring : relation.foreignKey.table = declared.1
  constraint : relation.constraint = constraintName declared.2.1 declared.2.2
  names : relation.foreignKey.name = declared.2.2.name ∧
    relation.candidateKey.name = declared.2.2.inverse
  foreignKey : Through tables relation.foreignKey declared.2.2.column
  referred : ∃ table, tables[relation.candidateKey.table]? = some table ∧
    table.name = declared.2.2.table
  candidateKey : Through tables relation.candidateKey declared.2.2.references

variable {tables grown : List Table}

theorem Through.of_grown (isGrown : AllGrown tables grown) {part : RelationPart} {name : String}
    (through : Through tables part name) : Through grown part name := by
  obtain ⟨table, column, index, found, isNamed, onTable, onColumn⟩ := through
  obtain ⟨now, foundNow, tableGrown⟩ := isGrown.each _ table found
  obtain ⟨after, onTableNow, indexGrown⟩ := tableGrown.kept _ index onTable
  exact ⟨now, column, after, foundNow, (tableGrown.columnIndex? name).trans isNamed, onTableNow,
    indexGrown.columns.trans onColumn⟩

theorem Joins.of_grown (isGrown : AllGrown tables grown) {declared : Nat × String × ForeignKeyDraft}
    {relation : Relation} (joins : Joins tables declared relation) :
    Joins grown declared relation where
  referring := joins.referring
  constraint := joins.constraint
  names := joins.names
  foreignKey := joins.foreignKey.of_grown isGrown
  referred := by
    obtain ⟨table, found, isNamed⟩ := joins.referred
    obtain ⟨now, foundNow, tableGrown⟩ := isGrown.each _ table found
    exact ⟨now, foundNow, tableGrown.name.trans isNamed⟩
  candidateKey := joins.candidateKey.of_grown isGrown

end Linking

namespace Table

/-- A table with a primary key has the index on it at the front. -/
def KeyIndexed (table : Table) : Prop :=
  table.primaryKeys ≠ [] →
    ∃ index, table.indices[0]? = some index ∧ index.columns = table.primaryKeys

theorem KeyIndexed.of_grown {old new : Table} (grown : old.Grown new) (indexed : old.KeyIndexed) :
    new.KeyIndexed := by
  intro hasKey
  obtain ⟨index, atFront, onKey⟩ := indexed (grown.primaryKeys ▸ hasKey)
  obtain ⟨after, atFrontNow, isGrown⟩ := grown.kept 0 index atFront
  exact ⟨after, atFrontNow, by rw [isGrown.columns, onKey, grown.primaryKeys]⟩

theorem AllGrown.keyIndexed {before after : List Table} (grown : AllGrown before after)
    (indexed : ∀ table ∈ before, table.KeyIndexed) : ∀ table ∈ after, table.KeyIndexed := by
  intro table membership
  obtain ⟨position, found⟩ := List.mem_iff_getElem?.mp membership
  obtain ⟨old, wasThere, isGrown⟩ := grown.origin found
  exact (indexed old (List.mem_of_getElem? wasThere)).of_grown isGrown

theorem lt_of_columnIndex? {table : Table} {name : String} {column : Nat}
    (found : table.columnIndex? name = some column) : column < table.columns.length := by
  rw [columnIndex?, Option.orElse_eq_orElse, Option.orElse_eq_or] at found
  rcases Option.or_eq_some_iff.mp found with byName | ⟨_, byProperty⟩
  · exact (List.findIdx?_eq_some_iff_getElem.mp byName).1
  · exact (List.findIdx?_eq_some_iff_getElem.mp byProperty).1

/-- What `indexFor` gives is an index on just the column. -/
theorem indexFor_columns (table : Table) (column : Nat) (kind : IndexKind) (name : String) :
    ∃ index, (table.indexFor column kind name).1.indices[(table.indexFor column kind name).2]? =
      some index ∧ index.columns = [column] := by
  unfold indexFor
  cases found : table.indexOn? column with
  | none => exact ⟨_, List.getElem?_concat_length, rfl⟩
  | some position =>
    obtain ⟨inside, suits, _⟩ := List.findIdx?_eq_some_iff_getElem.mp found
    have onColumn : table.indices[position].columns = [column] := by simp_all
    dsimp only
    rw [List.getElem?_modify_eq, List.getElem?_eq_getElem inside]
    refine ⟨_, rfl, ?_⟩
    dsimp only
    split <;> exact onColumn

/-- An index that is reused keeps its parts, and one that is added has none. -/
theorem partsAt_indexFor (table : Table) (column : Nat) (kind : IndexKind) (name : String)
    (index : Nat) : (table.indexFor column kind name).1.partsAt index = table.partsAt index := by
  unfold indexFor partsAt
  cases table.indexOn? column with
  | some position =>
    dsimp only
    rw [List.getElem?_modify]
    cases table.indices[index]? with
    | none => rfl
    | some found =>
      dsimp only [Option.map_eq_map, Option.map_some, Option.getD_some]
      by_cases here : position = index
      · rw [if_pos here]
        split <;> rfl
      · rw [if_neg here]
  | none =>
    dsimp only
    rcases Nat.lt_trichotomy index table.indices.length with inside | atEnd | behind
    · rw [List.getElem?_append_left inside]
    · simp [atEnd]
    · rw [List.getElem?_eq_none (by simp; omega), List.getElem?_eq_none (Nat.le_of_lt behind)]

/-- A part put on an index stands behind the parts that were there, and on no other index. -/
theorem partsAt_addPart {table : Table} {index : Nat} (inside : index < table.indices.length)
    (relation : Nat) (side : Side) (place : Nat) :
    (table.addPart index relation side).partsAt place =
      table.partsAt place ++ if index = place then [(relation, side)] else [] := by
  rw [partsAt, addPart]
  dsimp only
  rw [List.getElem?_modify]
  by_cases here : index = place
  · subst here
    simp [partsAt, List.getElem?_eq_getElem inside]
  · simp [partsAt, here]

/-- A change of a table that finds or makes an index on just one of its columns. -/
structure Provides (change : Table → Table × Nat) (table : Table) (column : Nat) : Prop where
  grown : table.Grown (change table).1
  parts : ∀ index, (change table).1.partsAt index = table.partsAt index
  onColumn : ∃ index, (change table).1.indices[(change table).2]? = some index ∧
    index.columns = [column]

theorem provides_indexFor {table : Table} {column : Nat} (inside : column < table.columns.length)
    {kind : IndexKind} (notKey : kind ≠ .primaryKey) (name : String) :
    Provides (fun table => (table.markForeignKey column).indexFor column kind name) table column where
  grown := (Grown.markForeignKey table column).trans
    (.indexFor ((Grown.markForeignKey table column).length ▸ inside) notKey name)
  parts := partsAt_indexFor _ _ _ _
  onColumn := indexFor_columns _ _ _ _

/-- On a column that is the whole key the index at the front serves. -/
theorem provides_keyOr {table : Table} (indexed : table.KeyIndexed) {column : Nat}
    (inside : column < table.columns.length) (name : String) :
    Provides (fun table =>
      if table.primaryKeys = [column] then (table, 0) else table.indexFor column .unique name)
      table column := by
  by_cases isKey : table.primaryKeys = [column]
  · constructor <;> simp only [if_pos isKey]
    · exact .refl table
    · exact fun _ => trivial
    · obtain ⟨index, atFront, onKey⟩ := indexed (by simp [isKey])
      exact ⟨index, atFront, onKey.trans isKey⟩
  · constructor <;> simp only [if_neg isKey]
    · exact .indexFor inside (by decide) name
    · exact partsAt_indexFor _ _ _ _
    · exact indexFor_columns _ _ _ _

end Table

namespace Linking

open Table

variable {tables : List Table}

theorem onTable_eq {position : Nat} {table : Table} (found : tables[position]? = some table)
    (change : Table → Table × Nat) :
    onTable tables position change =
      (tables.modify position fun table => (change table).1, (change table).2) := by
  rw [onTable, found, List.modify_eq_set_getElem?, found]
  rfl

/-- The tables after one of them has provided an index on a column. -/
structure Provided (tables provided : List Table) (position column index : Nat) : Prop where
  grown : AllGrown tables provided
  parts : ∀ table index, partsAt provided table index = partsAt tables table index
  onColumn : ∃ table onTable, provided[position]? = some table ∧
    table.indices[index]? = some onTable ∧ onTable.columns = [column]

theorem Provided.of_provides {change : Table → Table × Nat} {position : Nat} {table : Table}
    {column : Nat} (provides : Provides change table column)
    (found : tables[position]? = some table) :
    Provided tables (onTable tables position change).1 position column
      (onTable tables position change).2 := by
  rw [onTable_eq found]
  refine ⟨.modify position fun other isThere => ?_, fun place index => ?_, ?_⟩
  · obtain rfl := Option.some.inj (found.symm.trans isThere)
    exact provides.grown
  · rw [partsAt, partsAt, List.getElem?_modify]
    by_cases here : position = place
    · subst here
      simp [found, provides.parts]
    · simp [here]
  · obtain ⟨index, isThere, onColumn⟩ := provides.onColumn
    exact ⟨_, index, by simp [found], isThere, onColumn⟩

/-- A part put on an index of a table stands behind those that were there, and nowhere else. -/
theorem partsAt_modify_addPart {position index : Nat}
    (isThere : ∃ table onTable, tables[position]? = some table ∧ table.indices[index]? = some onTable)
    (relation : Nat) (side : Side) (place other : Nat) :
    partsAt (tables.modify position (·.addPart index relation side)) place other =
      partsAt tables place other ++
        if position = place ∧ index = other then [(relation, side)] else [] := by
  obtain ⟨table, onTable, found, indexFound⟩ := isThere
  have inside := (List.getElem?_eq_some_iff.mp indexFound).1
  rw [partsAt, partsAt, List.getElem?_modify]
  by_cases here : position = place
  · subst here
    simp [found, partsAt_addPart inside]
  · simp [here]

theorem Provided.through {provided : List Table} {position column index : Nat}
    (isProvided : Provided tables provided position column index) {table : Table} {name : String}
    (found : tables[position]? = some table) (isNamed : table.columnIndex? name = some column)
    (relation : Nat) (side : Side) (label : String) :
    Through provided { relation, side, table := position, index, name := label } name := by
  obtain ⟨now, onTable, foundNow, isThere, onColumn⟩ := isProvided.onColumn
  obtain ⟨same, foundSame, grown⟩ := isProvided.grown.each position table found
  obtain rfl := Option.some.inj (foundNow.symm.trans foundSame)
  exact ⟨now, column, onTable, foundNow, (grown.columnIndex? name).trans isNamed, isThere, onColumn⟩

theorem Through.isThere {part : RelationPart} {name : String} (through : Through tables part name) :
    ∃ table onTable, tables[part.table]? = some table ∧
      table.indices[part.index]? = some onTable := by
  obtain ⟨table, _, index, found, _, onTable, _⟩ := through
  exact ⟨table, index, found, onTable⟩

/-- What a foreign key joins are the columns that it names. -/
theorem ends?_spec {referring : Nat} {name : String} {key : ForeignKeyDraft} {ends : Ends}
    (found : ends? tables referring name key = .ok ends) :
    ends.referring = referring ∧
      (∃ table, tables[referring]? = some table ∧
        table.columnIndex? key.column = some ends.referringColumn) ∧
      ∃ table, tables[ends.referred]? = some table ∧ table.name = key.table ∧
        table.columnIndex? key.references = some ends.referredColumn := by
  unfold ends? at found
  dsimp only at found
  split at found
  · cases found
  · next referred isNamed =>
    split at found
    · cases found
    · next referringColumn isReferring =>
      split at found
      · cases found
      · next referredColumn isReferred =>
        cases found
        obtain ⟨referringTable, foundReferring, onReferring⟩ := Option.bind_eq_some_iff.mp isReferring
        obtain ⟨referredTable, foundReferred, onReferred⟩ := Option.bind_eq_some_iff.mp isReferred
        obtain ⟨inside, sameName, _⟩ := List.findIdx?_eq_some_iff_getElem.mp isNamed
        refine ⟨rfl, ⟨referringTable, foundReferring, onReferring⟩, referredTable, foundReferred, ?_,
          onReferred⟩
        rw [List.getElem?_eq_getElem inside] at foundReferred
        exact Option.some.inj foundReferred ▸ beq_iff_eq.mp sameName

/-- What linking a foreign key makes of the tables and which relation it yields. -/
structure Linked (tables linked : List Table) (declared : Nat × String × ForeignKeyDraft)
    (id : Nat) (relation : Relation) : Prop where
  grown : AllGrown tables linked
  numbered : relation.Numbered id
  joins : Joins linked declared relation
  parts : ∀ table index,
    partsAt linked table index = partsAt tables table index ++ partsThrough [relation] table index

theorem partsThrough_singleton (relation : Relation) (table index : Nat) :
    partsThrough [relation] table index =
      (if relation.foreignKey.table = table ∧ relation.foreignKey.index = index then
        [(relation.foreignKey.relation, relation.foreignKey.side)] else []) ++
      if relation.candidateKey.table = table ∧ relation.candidateKey.index = index then
        [(relation.candidateKey.relation, relation.candidateKey.side)] else [] := by
  simp only [partsThrough, Relation.parts, List.flatMap_cons, List.flatMap_nil, List.append_nil,
    List.filter_cons, List.filter_nil, decide_eq_true_eq]
  split <;> split <;> rfl

theorem link_eq {referring id : Nat} {name : String} {key : ForeignKeyDraft} {ends : Ends}
    (found : ends? tables referring name key = .ok ends) :
    link tables referring name key id =
      let first := referringIndex tables ends (constraintName name key)
      let second := referredIndex first.1 ends (candidateIndexName key)
      .ok ((second.1.modify ends.referring (·.addPart first.2 id .foreignKey)).modify
          ends.referred (·.addPart second.2 id .candidateKey),
        { id, constraint := constraintName name key
          foreignKey :=
            { relation := id, side := .foreignKey, table := ends.referring, index := first.2
              name := key.name }
          candidateKey :=
            { relation := id, side := .candidateKey, table := ends.referred, index := second.2
              name := key.inverse } }) := by
  rw [link, found]
  rfl

/-- A foreign key that is linked joins something. -/
theorem ends?_of_link {referring id : Nat} {name : String} {key : ForeignKeyDraft}
    {linked : List Table} {relation : Relation}
    (isLinked : link tables referring name key id = .ok (linked, relation)) :
    ∃ ends, ends? tables referring name key = .ok ends := by
  cases found : ends? tables referring name key with
  | ok ends => exact ⟨ends, rfl⟩
  | error fault =>
    rw [link, found] at isLinked
    cases isLinked

/-- The table that refers has an index on the column that refers. -/
theorem provided_referringIndex {ends : Ends} {table : Table} {name : String}
    (isReferring : tables[ends.referring]? = some table)
    (onReferring : table.columnIndex? name = some ends.referringColumn) (constraint : String) :
    Provided tables (referringIndex tables ends constraint).1 ends.referring ends.referringColumn
      (referringIndex tables ends constraint).2 :=
  .of_provides (provides_indexFor (lt_of_columnIndex? onReferring) (by decide) _) isReferring

theorem link_linked (indexed : ∀ table ∈ tables, table.KeyIndexed) {referring id : Nat}
    {name : String} {key : ForeignKeyDraft} {linked : List Table} {relation : Relation}
    (isLinked : link tables referring name key id = .ok (linked, relation)) :
    Linked tables linked (referring, name, key) id relation := by
  obtain ⟨ends, found⟩ := ends?_of_link isLinked
  rw [link_eq found] at isLinked
  obtain ⟨rfl, ⟨table, isReferring, onReferring⟩, other, isReferred, isNamed, onReferred⟩ :=
    ends?_spec found
  dsimp only at isLinked
  -- the index on the referring column
  have first := provided_referringIndex isReferring onReferring (constraintName name key)
  generalize referringIndex tables ends (constraintName name key) = referringStep at first isLinked
  -- the index on the referred column, of a table that may have grown by then
  obtain ⟨grownOther, foundOther, otherGrown⟩ := first.grown.each _ other isReferred
  have keyIndexed := (indexed other (List.mem_of_getElem? isReferred)).of_grown otherGrown
  have second : Provided referringStep.1
      (referredIndex referringStep.1 ends (candidateIndexName key)).1
      ends.referred ends.referredColumn
      (referredIndex referringStep.1 ends (candidateIndexName key)).2 :=
    .of_provides (provides_keyOr keyIndexed (otherGrown.length ▸ lt_of_columnIndex? onReferred) _)
      foundOther
  generalize referredIndex referringStep.1 ends (candidateIndexName key) = referredStep
    at second isLinked
  obtain ⟨rfl, rfl⟩ := Prod.mk.inj (Except.ok.inj isLinked)
  have foreignThrough := (first.through isReferring onReferring id .foreignKey key.name).of_grown
    second.grown
  have candidateThrough := second.through foundOther
    ((otherGrown.columnIndex? key.references).trans onReferred) id .candidateKey key.inverse
  -- a part on each of the two
  have third : AllGrown referredStep.1
      (referredStep.1.modify ends.referring (·.addPart referringStep.2 id .foreignKey)) :=
    .modify _ fun table _ => .addPart table _ _ _
  have fourth : AllGrown _
      ((referredStep.1.modify ends.referring (·.addPart referringStep.2 id .foreignKey)).modify
        ends.referred (·.addPart referredStep.2 id .candidateKey)) :=
    .modify _ fun table _ => .addPart table _ _ _
  have grown := (first.grown.trans second.grown).trans (third.trans fourth)
  refine
    { grown
      numbered := ⟨rfl, fun side => by cases side <;> rfl, fun side => by cases side <;> rfl⟩
      joins :=
        { referring := rfl
          constraint := rfl
          names := ⟨rfl, rfl⟩
          foreignKey := foreignThrough.of_grown (third.trans fourth)
          referred := ?_
          candidateKey := candidateThrough.of_grown (third.trans fourth) }
      parts := fun place index => ?_ }
  · obtain ⟨now, foundNow, isGrown⟩ := grown.each _ other isReferred
    exact ⟨now, foundNow, isGrown.name.trans isNamed⟩
  · rw [partsAt_modify_addPart (candidateThrough.of_grown third).isThere,
      partsAt_modify_addPart foreignThrough.isThere, second.parts, first.parts,
      partsThrough_singleton, List.append_assoc]

/-- One more foreign key is linked, or else what it joins is not there and its fault is noted. -/
theorem step_cases (progress : Progress) (referring : Nat) (name : String) (key : ForeignKeyDraft) :
    (∃ linked relation,
      link progress.tables referring name key progress.relations.length = .ok (linked, relation) ∧
        step progress referring name key =
          { progress with tables := linked, relations := progress.relations ++ [relation] }) ∨
    ∃ fault, ends? progress.tables referring name key = .error fault ∧
      step progress referring name key = { progress with faults := progress.faults ++ [fault] } := by
  cases found : ends? progress.tables referring name key with
  | ok ends => exact .inl ⟨_, _, link_eq found, by rw [step, link_eq found]⟩
  | error fault =>
    have notLinked : link progress.tables referring name key progress.relations.length =
        .error fault := by
      rw [link, found]
      rfl
    exact .inr ⟨fault, rfl, by rw [step, notLinked]⟩

/-- One more foreign key that leaves no fault is linked, and there was none before. -/
theorem step_of_faultless {progress : Progress} {referring : Nat} {name : String}
    {key : ForeignKeyDraft} (faultless : (step progress referring name key).faults = []) :
    progress.faults = [] ∧ ∃ linked relation,
      link progress.tables referring name key progress.relations.length = .ok (linked, relation) ∧
        step progress referring name key =
          { progress with tables := linked, relations := progress.relations ++ [relation] } := by
  rcases step_cases progress referring name key with
    ⟨linked, relation, isLinked, stepped⟩ | ⟨fault, _, stepped⟩
  · rw [stepped] at faultless
    exact ⟨faultless, linked, relation, isLinked, stepped⟩
  · simp [stepped] at faultless

theorem partsThrough_append (relations others : List Relation) (table index : Nat) :
    partsThrough (relations ++ others) table index =
      partsThrough relations table index ++ partsThrough others table index := by
  rw [partsThrough, List.flatMap_append, List.filter_append, List.map_append]
  rfl

/-- What linking some foreign keys has led to where it met no fault. -/
structure Sound (declared : List Table) (keys : List (Nat × String × ForeignKeyDraft))
    (progress : Progress) : Prop where
  grown : AllGrown declared progress.tables
  joins : List.Forall₂ (Joins progress.tables) keys progress.relations
  numbered : ∀ (position : Nat) (relation : Relation),
    progress.relations[position]? = some relation → relation.Numbered position
  parts : ∀ table index, partsAt progress.tables table index =
    partsThrough progress.relations table index

variable {declared : List Table} {keys : List (Nat × String × ForeignKeyDraft)}
  {progress : Progress}

theorem Sound.start (unlinked : ∀ table index, partsAt declared table index = []) :
    Sound declared [] { tables := declared } where
  grown := .refl declared
  joins := .nil
  numbered position relation found := by simp at found
  parts := unlinked

theorem Sound.indexed (sound : Sound declared keys progress)
    (indexed : ∀ table ∈ declared, table.KeyIndexed) :
    ∀ table ∈ progress.tables, table.KeyIndexed :=
  sound.grown.keyIndexed indexed

/-- One more foreign key keeps every relation there is as it is. -/
theorem Sound.step (sound : Sound declared keys progress)
    (indexed : ∀ table ∈ declared, table.KeyIndexed) (referring : Nat) (name : String)
    (key : ForeignKeyDraft) (faultless : (step progress referring name key).faults = []) :
    Sound declared (keys ++ [(referring, name, key)]) (step progress referring name key) := by
  obtain ⟨_, linked, relation, isLinked, stepped⟩ := step_of_faultless faultless
  have link := link_linked (sound.indexed indexed) isLinked
  rw [stepped]
  refine
    { grown := sound.grown.trans link.grown
      joins := List.rel_append (sound.joins.imp fun _ _ => .of_grown link.grown)
        (.cons link.joins .nil)
      numbered := fun position other found => ?_
      parts := fun table index => ?_ }
  · rw [List.getElem?_append] at found
    split at found
    · exact sound.numbered position other found
    · next behind =>
      obtain ⟨inside, same⟩ := List.getElem?_eq_some_iff.mp found
      have atEnd : position = progress.relations.length := by
        simp only [List.length_singleton] at inside
        omega
      obtain rfl : relation = other := by simpa using same
      exact atEnd ▸ link.numbered
  · rw [link.parts, sound.parts, partsThrough_append]

/-- What holds at the start and is kept by every foreign key holds once all are linked. -/
theorem linkAll_steps {motive : List (Nat × String × ForeignKeyDraft) → Progress → Prop}
    (start : motive [] { tables := declared })
    (next : ∀ keys progress key, motive keys progress →
      motive (keys ++ [key]) (step progress key.1 key.2.1 key.2.2))
    (drafts : List TableDraft) : motive (foreignKeys drafts) (linkAll declared drafts) := by
  unfold linkAll
  generalize foreignKeys drafts = keys
  induction keys using List.reverseRecOn with
  | nil => exact start
  | append_singleton keys key inductionHypothesis =>
    rw [List.foldl_append]
    exact next _ _ key inductionHypothesis

/-- What holds before any foreign key is linked, and is kept by one that is linked without a
fault, holds where linking all of them meets none. -/
theorem linkAll_induction
    {motive : List (Nat × String × ForeignKeyDraft) → Progress → Prop}
    (start : motive [] { tables := declared })
    (next : ∀ keys progress referring name key, motive keys progress →
      (step progress referring name key).faults = [] →
        motive (keys ++ [(referring, name, key)]) (step progress referring name key))
    (drafts : List TableDraft) (faultless : (linkAll declared drafts).faults = []) :
    motive (foreignKeys drafts) (linkAll declared drafts) := by
  apply linkAll_steps (motive := fun keys progress => progress.faults = [] → motive keys progress)
    (fun _ => start) _ drafts faultless
  rintro keys progress ⟨referring, name, key⟩ inductionHypothesis faultless
  exact next _ _ referring name key (inductionHypothesis (step_of_faultless faultless).1) faultless

/-- Where linking all foreign keys meets no fault, there is a relation for each of them, and
every index lists the parts that go through it. -/
theorem linkAll_sound (indexed : ∀ table ∈ declared, table.KeyIndexed)
    (unlinked : ∀ table index, partsAt declared table index = []) (drafts : List TableDraft)
    (faultless : (linkAll declared drafts).faults = []) :
    Sound declared (foreignKeys drafts) (linkAll declared drafts) := by
  apply linkAll_induction _ _ drafts faultless
  · exact .start unlinked
  · intro keys progress referring name key sound faultless
    exact sound.step indexed referring name key faultless

end Linking

end RelationalAccess
