import Mathlib.Data.List.Perm.Basic
import RelationalAccess.Proofs.Schema.Buildable
import RelationalAccess.Proofs.Schema.Candidates
import RelationalAccess.Proofs.Schema.Coherence

/-!
The names of indices. Besides those that are declared, a table has one for its primary key and
those that foreign keys have added, each on a column that had none before, under the name that
the foreign key proposed. Names are composed of those of tables and columns, and are distinct
just where the compositions are.
-/

namespace RelationalAccess

/-- What is added to the image of one member is added to that of all, in some order. -/
theorem perm_flatMap_modify {α β : Type} {image : α → List β} {items : List α} {place : Nat}
    {item : α} (found : items[place]? = some item) {change : α → α} {added : List β}
    (adds : image (change item) = image item ++ added) :
    ((items.modify place change).flatMap image).Perm (items.flatMap image ++ added) := by
  induction items generalizing place with
  | nil => cases found
  | cons head rest inductionHypothesis =>
    cases place with
    | zero =>
      obtain rfl := Option.some.inj found
      rw [List.modify_zero_cons, List.flatMap_cons, List.flatMap_cons, adds, List.append_assoc,
        List.append_assoc]
      exact (List.perm_append_comm).append_left _
    | succ place =>
      rw [List.modify_succ_cons, List.flatMap_cons, List.flatMap_cons, List.append_assoc]
      exact (inductionHypothesis found).append_left _

namespace Table

/-- The names of the indices of a table, each with whether it is the one of the primary key. -/
def labels (table : Table) : List (String × Bool) :=
  table.indices.map fun index => (index.name, decide (index.kind = .primaryKey))

variable {table : Table} {column : Nat}

/-- Indices changed where they stand keep their names. -/
theorem labels_modify (table : Table) (position : Nat) {change : Index → Index}
    (sameName : ∀ index : Index, (change index).name = index.name)
    (keeps : ∀ index : Index, index.Grown (change index)) :
    labels { table with indices := table.indices.modify position change } = table.labels :=
  map_modify_of_same (fun index => by simp [sameName, (keeps index).key]) table.indices position

theorem labels_addPart (table : Table) (index relation : Nat) (side : Side) :
    (table.addPart index relation side).labels = table.labels :=
  labels_modify table index (fun _ => rfl) fun _ => ⟨rfl, rfl, Iff.rfl⟩

theorem isSome_kindOn? : (table.kindOn? column).isSome = (table.indexOn? column).isSome := by
  cases found : table.indexOn? column with
  | none =>
    rw [kindOn?_of_indexOn?_none found]
    rfl
  | some position =>
    obtain ⟨index, isThere, _⟩ := indexOn?_inside found
    rw [kindOn?_of_indexOn? found isThere]
    rfl

/-- An index that is asked for adds its name where none is on the column. -/
theorem labels_indexFor (table : Table) {kind : IndexKind} (notKey : kind ≠ .primaryKey)
    (name : String) :
    (table.indexFor column kind name).1.labels =
      table.labels ++ if (table.kindOn? column).isSome then [] else [(name, false)] := by
  rw [isSome_kindOn?, indexFor]
  cases table.indexOn? column with
  | none => simp [labels, notKey]
  | some position =>
    rw [if_pos Option.isSome_some, List.append_nil]
    exact labels_modify table position (fun index => by split <;> rfl)
      (grown_promoted · kind)

theorem isSome_kindOn?_indexFor (table : Table) {kind : IndexKind} (notKey : kind ≠ .primaryKey)
    (name : String) (other : Nat) : ((table.indexFor column kind name).1.kindOn? other).isSome =
      ((table.kindOn? other).isSome || other == column) := by
  rw [Linking.kindOn?_indexFor table column notKey]
  by_cases here : column = other
  · simp [here]
  · simp [here, Ne.symm here]

end Table

namespace Linking

open Table

/-- The names of the indices of some tables, each with whether it is that of a primary key. -/
def labels (tables : List Table) : List (String × Bool) := tables.flatMap Table.labels

/-- An index, other than that of a primary key, is on just a column of a table, both given by
their positions. -/
def served (tables : List Table) (column : Nat × Nat) : Bool :=
  (kindAt? tables column.1 column.2).isSome

/-- The columns on which a foreign key needs an index, with the names that it proposes: the one
that refers, and the one that is referred to unless it is the whole primary key. -/
def proposals (tables : List Table) (declared : Nat × String × ForeignKeyDraft) :
    List ((Nat × Nat) × String) :=
  match ends? tables declared.1 declared.2.1 declared.2.2 with
  | .error _ => []
  | .ok ends =>
    ((ends.referring, ends.referringColumn), constraintName declared.2.1 declared.2.2) ::
      if tables[ends.referred]?.map (·.primaryKeys) = some [ends.referredColumn] then []
      else [((ends.referred, ends.referredColumn), candidateIndexName declared.2.2)]

/-- The proposed names that are taken up, where some columns are served already: the first for
each of the others. -/
def adopted (served : Nat × Nat → Bool) : List ((Nat × Nat) × String) → List String
  | [] => []
  | (column, name) :: others =>
    if served column then adopted served others
    else name :: adopted (fun other => served other || other == column) others

theorem adopted_append (served : Nat × Nat → Bool) (first second : List ((Nat × Nat) × String)) :
    adopted served (first ++ second) = adopted served first ++
      adopted (fun column => served column || (first.map Prod.fst).contains column) second := by
  induction first generalizing served with
  | nil => simp [adopted]
  | cons proposal others inductionHypothesis =>
    obtain ⟨column, name⟩ := proposal
    rw [List.cons_append, adopted, adopted]
    by_cases isServed : served column = true
    · rw [if_pos isServed, if_pos isServed, inductionHypothesis]
      congr 2
      funext other
      rw [List.map_cons, List.contains_cons]
      cases isSame : other == column with
      | true => simp [beq_iff_eq.mp isSame, isServed]
      | false => rw [Bool.false_or]
    · rw [if_neg isServed, if_neg isServed, inductionHypothesis, List.cons_append]
      congr 3
      funext other
      rw [List.map_cons, List.contains_cons, Bool.or_assoc]

/-- A name that is taken up was proposed for a column that was not served. -/
theorem mem_of_adopted {served : Nat × Nat → Bool} {proposed : List ((Nat × Nat) × String)}
    {name : String} (membership : name ∈ adopted served proposed) :
    ∃ column, (column, name) ∈ proposed ∧ served column = false := by
  induction proposed generalizing served with
  | nil => cases membership
  | cons proposal others inductionHypothesis =>
    obtain ⟨column, proposedName⟩ := proposal
    rw [adopted] at membership
    split at membership
    · obtain ⟨other, isOther, unserved⟩ := inductionHypothesis membership
      exact ⟨other, List.mem_cons_of_mem _ isOther, unserved⟩
    · next unserved =>
      rcases List.mem_cons.mp membership with rfl | later
      · exact ⟨column, List.mem_cons_self, by simpa using unserved⟩
      · obtain ⟨other, isOther, unserved⟩ := inductionHypothesis later
        exact ⟨other, List.mem_cons_of_mem _ isOther, (Bool.or_eq_false_iff.mp unserved).1⟩

/-- Of the names proposed for columns, those that are needed have been taken up. -/
structure Adopts (tables new : List Table) (proposed : List ((Nat × Nat) × String)) : Prop where
  labels : (labels new).Perm (labels tables ++ (adopted (served tables) proposed).map (·, false))
  served : ∀ column,
    served new column = (served tables column || (proposed.map Prod.fst).contains column)

namespace Adopts

variable {tables between new : List Table} {proposed others : List ((Nat × Nat) × String)}

theorem refl (tables : List Table) : Adopts tables tables [] :=
  ⟨by simp [adopted], by simp⟩

theorem trans (first : Adopts tables between proposed) (second : Adopts between new others) :
    Adopts tables new (proposed ++ others) where
  labels := by
    refine second.labels.trans ((first.labels.append_right _).trans ?_)
    rw [List.append_assoc, ← List.map_append, adopted_append, funext first.served]
  served column := by
    rw [second.served, first.served, List.map_append, List.contains_append, Bool.or_assoc]

theorem modify (position : Nat) {change : Table → Table}
    (sameLabels : ∀ table : Table, (change table).labels = table.labels)
    (sameKinds : ∀ (table : Table) column, (change table).kindOn? column = table.kindOn? column) :
    Adopts tables (tables.modify position change) [] where
  labels := by
    rw [Linking.labels, List.flatMap_def, map_modify_of_same sameLabels, adopted, List.map_nil,
      List.append_nil]
    exact .refl _
  served column := by
    rw [Linking.served, kindAt?_modify position (sameKinds · _)]
    simp [Linking.served]

/-- A part put on an index changes no name. -/
theorem addPart (adopts : Adopts tables new proposed) (position index relation : Nat) (side : Side) :
    Adopts tables (new.modify position (·.addPart index relation side)) proposed := by
  have parts : Adopts new (new.modify position (·.addPart index relation side)) [] :=
    .modify position (labels_addPart · _ _ _) fun table => kindOn?_addPart table _ _ _
  simpa only [List.append_nil] using adopts.trans parts

/-- A table that is asked for an index on one of its columns takes up the name. -/
theorem onTable {position : Nat} {table : Table} (found : tables[position]? = some table)
    {change : Table → Table × Nat} {column : Nat} {name : String}
    (labels : (change table).1.labels =
      table.labels ++ if (table.kindOn? column).isSome then [] else [(name, false)])
    (kinds : ∀ other, ((change table).1.kindOn? other).isSome =
      ((table.kindOn? other).isSome || other == column)) :
    Adopts tables (onTable tables position change).1 [((position, column), name)] where
  labels := by
    have isServed : Linking.served tables (position, column) = (table.kindOn? column).isSome := by
      rw [Linking.served, kindAt?, found, Option.bind_some]
    rw [onTable_eq found]
    refine (perm_flatMap_modify found labels).trans (List.Perm.of_eq ?_)
    rw [adopted, isServed]
    cases (table.kindOn? column).isSome <;> rfl
  served := by
    rintro ⟨place, other⟩
    rw [onTable_eq found, Linking.served, Linking.served, kindAt?, kindAt?, List.getElem?_modify]
    by_cases here : position = place
    · subst here
      rw [Bool.eq_iff_iff]
      simp [found, kinds]
    · cases tables[place]? <;> simp [here, Ne.symm here]

end Adopts

variable {tables : List Table} {ends : Ends}

theorem adopts_referringIndex {table : Table} (found : tables[ends.referring]? = some table)
    (constraint : String) : Adopts tables (referringIndex tables ends constraint).1
      [((ends.referring, ends.referringColumn), constraint)] := by
  let marked := table.markForeignKey ends.referringColumn
  exact .onTable found (labels_indexFor marked (by decide) constraint)
    (isSome_kindOn?_indexFor marked (by decide) constraint)

theorem adopts_referredIndex {table : Table} (found : tables[ends.referred]? = some table)
    (name : String) : Adopts tables (referredIndex tables ends name).1
      (if tables[ends.referred]?.map (·.primaryKeys) = some [ends.referredColumn] then []
        else [((ends.referred, ends.referredColumn), name)]) := by
  have isWhole : tables[ends.referred]?.map (·.primaryKeys) = some [ends.referredColumn] ↔
      table.primaryKeys = [ends.referredColumn] := by
    rw [found, Option.map_some, Option.some.injEq]
  by_cases isKey : table.primaryKeys = [ends.referredColumn]
  · have same : (referredIndex tables ends name).1 = tables := by
      obtain ⟨inside, rfl⟩ := List.getElem?_eq_some_iff.mp found
      rw [referredIndex, Linking.onTable, found]
      simp only [if_pos isKey, List.set_getElem_self]
    rw [if_pos (isWhole.mpr isKey), same]
    exact .refl tables
  · rw [if_neg (mt isWhole.mp isKey)]
    exact .onTable found (by rw [if_neg isKey]; exact labels_indexFor table (by decide) name)
      (by rw [if_neg isKey]; exact isSome_kindOn?_indexFor table (by decide) name)

/-- A foreign key that is linked has what it proposes taken up. -/
theorem link_adopts {referring id : Nat} {table : String} {key : ForeignKeyDraft}
    {linked : List Table} {relation : Relation}
    (isLinked : link tables referring table key id = .ok (linked, relation)) :
    Adopts tables linked (proposals tables (referring, table, key)) := by
  obtain ⟨ends, found⟩ := ends?_of_link isLinked
  rw [link_eq found] at isLinked
  obtain ⟨isTables, _⟩ := Prod.mk.inj (Except.ok.inj isLinked)
  obtain ⟨rfl, ⟨owner, isReferring, onReferring⟩, other, isReferred, _⟩ := ends?_spec found
  have first := adopts_referringIndex isReferring (constraintName table key)
  have between := (provided_referringIndex isReferring onReferring (constraintName table key)).grown
  obtain ⟨grownOther, foundOther, _⟩ := between.each _ other isReferred
  have second := adopts_referredIndex foundOther (candidateIndexName key)
  rw [between.primaryKeys] at second
  rw [← isTables, proposals, found]
  exact ((first.trans second).addPart _ _ _ _).addPart _ _ _ _

/-- What a foreign key proposes does not change as tables grow. -/
theorem proposals_of_grown {grown : List Table} (isGrown : AllGrown tables grown)
    (key : Nat × String × ForeignKeyDraft) : proposals grown key = proposals tables key := by
  rw [proposals, proposals, ends?_of_grown isGrown]
  cases ends? tables key.1 key.2.1 key.2.2 with
  | error fault => rfl
  | ok ends => simp only [isGrown.primaryKeys]

/-- Of the names that foreign keys propose, those that are needed are taken up as they are
linked. -/
theorem linkAll_adopts {declared : List Table} (indexed : ∀ table ∈ declared, table.KeyIndexed)
    (drafts : List TableDraft) :
    AllGrown declared (linkAll declared drafts).tables ∧
      Adopts declared (linkAll declared drafts).tables
        ((foreignKeys drafts).flatMap (proposals declared)) := by
  apply linkAll_steps (motive := fun keys progress => AllGrown declared progress.tables ∧
    Adopts declared progress.tables (keys.flatMap (proposals declared)))
  · exact ⟨.refl _, .refl _⟩
  · rintro keys progress key ⟨grown, adopts⟩
    obtain ⟨_, grownOn⟩ := step_faults (grown.keyIndexed indexed) key.1 key.2.1 key.2.2
    refine ⟨grown.trans grownOn, ?_⟩
    rw [List.flatMap_append, List.flatMap_singleton]
    apply adopts.trans
    rw [← proposals_of_grown grown]
    rcases step_cases progress key.1 key.2.1 key.2.2 with
      ⟨linked, relation, isLinked, stepped⟩ | ⟨fault, found, stepped⟩
    · rw [stepped]
      exact link_adopts isLinked
    · rw [stepped, proposals, found]
      exact .refl _

end Linking

/-- A name that begins as those do that are made for indices of keys, foreign keys and
candidate keys. -/
def IsReserved (name : String) : Prop :=
  ∃ start ∈ ["pk_", "fk_", "uq_"], start.toList <+: name.toList

instance : DecidablePred IsReserved := fun name =>
  inferInstanceAs (Decidable (∃ start ∈ ["pk_", "fk_", "uq_"], start.toList <+: name.toList))

theorem prefix_of_append (start rest : String) : start.toList <+: (start ++ rest).toList := by
  rw [String.toList_append]
  exact List.prefix_append _ _

/-- The names of all indices of a database. -/
def Database.indexNames (database : Database) : List String :=
  database.tables.flatMap fun table => table.indices.map (·.name)

namespace DatabaseDraft

open Linking Table

variable {draft : DatabaseDraft} {database : Database}

/-- The names of all indices that are declared. -/
def indexNames (draft : DatabaseDraft) : List String :=
  draft.tables.flatMap fun table => table.indices.map (·.name)

/-- The names of the indices of primary keys. -/
def keyNames (draft : DatabaseDraft) : List String :=
  draft.tables.flatMap fun table =>
    if table.keyPositions.isEmpty then [] else ["pk_" ++ table.name]

/-- The names of the indices that foreign keys add. -/
def addedNames (draft : DatabaseDraft) : List String :=
  adopted (served draft.declaredTables)
    ((foreignKeys draft.tables).flatMap (proposals draft.declaredTables))

/-- The names under which foreign keys are declared to a backend. -/
def constraintNames (draft : DatabaseDraft) : List String :=
  (foreignKeys draft.tables).map fun (_, table, key) => constraintName table key

theorem labels_table (table : TableDraft) (place : Nat) : (table.table place).labels =
    (if table.keyPositions.isEmpty then [] else [("pk_" ++ table.name, true)]) ++
      table.indices.map fun index => (index.name, false) := by
  rw [Table.labels, TableDraft.table, List.map_append, List.map_map]
  congr 1
  · rw [TableDraft.keyIndex]
    split <;> rfl
  · refine List.map_congr_left fun index _ => ?_
    exact Prod.ext rfl (decide_eq_false (TableDraft.index_kind place index))

/-- The indices of a built database are those of primary keys, those that are declared and those
that foreign keys add. -/
theorem Accepted.labels_perm (accepted : draft.Accepted database) :
    (labels database.tables).Perm (draft.keyNames.map (·, true) ++
      (draft.indexNames.map (·, false) ++ draft.addedNames.map (·, false))) := by
  have resolved : labels database.tables = labels draft.linked.tables := by
    rw [accepted.result, Linking.labels, List.flatMap_map]
    rfl
  have declared : labels draft.declaredTables = draft.tables.flatMap fun table =>
      (if table.keyPositions.isEmpty then [] else [("pk_" ++ table.name, true)]) ++
        table.indices.map fun index => (index.name, false) :=
    flatMap_mapIdx fun place table _ => labels_table table place
  have adopts := (linkAll_adopts accepted.indexed draft.tables).2
  rw [resolved, ← List.append_assoc]
  refine adopts.labels.trans (List.Perm.append_right _ ?_)
  rw [declared]
  refine (List.flatMap_append_perm _ _ _).symm.trans (List.Perm.of_eq ?_)
  rw [keyNames, indexNames, List.map_flatMap, List.map_flatMap]
  congr 1
  · refine List.flatMap_congr fun table _ => ?_
    split <;> rfl
  · refine List.flatMap_congr fun table _ => ?_
    rw [List.map_map]
    rfl

theorem Accepted.indexNames_perm (accepted : draft.Accepted database) :
    database.indexNames.Perm (draft.keyNames ++ (draft.indexNames ++ draft.addedNames)) := by
  have names : database.indexNames = (labels database.tables).map Prod.fst := by
    rw [Database.indexNames, Linking.labels, List.map_flatMap]
    refine List.flatMap_congr fun table _ => ?_
    rw [Table.labels, List.map_map]
    rfl
  rw [names]
  simpa [Function.comp_def] using accepted.labels_perm.map Prod.fst

theorem prefix_of_mem_keyNames {name : String} (membership : name ∈ draft.keyNames) :
    "pk_".toList <+: name.toList := by
  obtain ⟨table, _, isName⟩ := List.mem_flatMap.mp membership
  split at isName
  · cases isName
  · obtain rfl := List.mem_singleton.mp isName
    exact prefix_of_append _ _

theorem keyNames_nodup (distinct : (draft.tables.map (·.name)).Nodup) : draft.keyNames.Nodup := by
  rw [keyNames, List.nodup_flatMap]
  constructor
  · intro table _
    split <;> simp
  · refine (List.pairwise_map.mp distinct).imp fun {table other} apart name ofTable ofOther =>
      apart ?_
    dsimp only at ofTable ofOther
    split at ofTable
    · cases ofTable
    · split at ofOther
      · cases ofOther
      · have same := (List.mem_singleton.mp ofTable).symm.trans (List.mem_singleton.mp ofOther)
        exact (String.append_right_inj "pk_").mp same

/-- A name that a foreign key proposes is composed of those of a table and of one of its columns. -/
theorem composed_of_proposed {key : Nat × String × ForeignKeyDraft}
    (isKey : key ∈ foreignKeys draft.tables) {column : Nat × Nat} {name : String}
    (isProposed : (column, name) ∈ proposals draft.declaredTables key) :
    ∃ start ∈ ["fk_", "uq_"], ∃ table written, draft.declaredTables[column.1]? = some table ∧
      table.columnIndex? written = some column.2 ∧
        name = start ++ (table.name ++ ("_" ++ written)) := by
  unfold proposals at isProposed
  split at isProposed
  · cases isProposed
  · next ends found =>
    obtain ⟨isReferring, ⟨referring, foundReferring, onReferring⟩, referred, foundReferred, isNamed,
      onReferred⟩ := ends?_spec found
    rcases List.mem_cons.mp isProposed with first | second
    · obtain ⟨rfl, rfl⟩ := Prod.mk.inj first
      obtain ⟨drafted, isDrafted, sameName, _⟩ := mem_foreignKeys.mp isKey
      rw [declaredTables_getElem?, isDrafted] at foundReferring
      obtain rfl := Option.some.inj foundReferring
      refine ⟨"fk_", by simp, _, _, ?_, onReferring, ?_⟩
      · rw [isReferring, declaredTables_getElem?, isDrafted]
        rfl
      · rw [constraintName, ← sameName, String.append_assoc, String.append_assoc]
        rfl
    · split at second
      · cases second
      · obtain ⟨rfl, rfl⟩ := Prod.mk.inj (List.mem_singleton.mp second)
        refine ⟨"uq_", by simp, referred, _, foundReferred, onReferred, ?_⟩
        rw [candidateIndexName, isNamed, String.append_assoc, String.append_assoc]

theorem composed_of_mem_addedNames {name : String} (membership : name ∈ draft.addedNames) :
    ∃ start ∈ ["fk_", "uq_"], ∃ rest, name = start ++ rest := by
  obtain ⟨column, isProposed, _⟩ := mem_of_adopted membership
  obtain ⟨key, isKey, proposes⟩ := List.mem_flatMap.mp isProposed
  obtain ⟨start, isStart, table, written, _, _, same⟩ := composed_of_proposed isKey proposes
  exact ⟨start, isStart, _, same⟩

/-- No name that is added is one that is declared, as those are not reserved. -/
theorem declared_added_nodup_iff (distinct : draft.indexNames.Nodup)
    (unreserved : ∀ name ∈ draft.indexNames, ¬ IsReserved name) :
    (draft.indexNames ++ draft.addedNames).Nodup ↔ draft.addedNames.Nodup := by
  rw [List.nodup_append]
  refine ⟨fun ⟨_, added, _⟩ => added, fun added => ⟨distinct, added, ?_⟩⟩
  rintro name isDeclared _ isAdded rfl
  obtain ⟨start, isStart, rest, rfl⟩ := composed_of_mem_addedNames isAdded
  exact unreserved _ isDeclared ⟨start, List.mem_cons_of_mem _ isStart, prefix_of_append _ _⟩

theorem Accepted.indexNames_nodup_iff (accepted : draft.Accepted database)
    (distinct : draft.indexNames.Nodup) (unreserved : ∀ name ∈ draft.indexNames, ¬ IsReserved name) :
    database.indexNames.Nodup ↔ draft.addedNames.Nodup := by
  have keys := keyNames_nodup (tableFaults_eq_nil_iff.mp accepted.drafts).1
  rw [accepted.indexNames_perm.nodup_iff, List.nodup_append,
    declared_added_nodup_iff distinct unreserved]
  refine ⟨fun ⟨_, added, _⟩ => added, fun added => ⟨keys, added, ?_⟩⟩
  rintro name isKey other isOther rfl
  obtain ⟨rest, same⟩ := prefix_of_mem_keyNames isKey
  rcases List.mem_append.mp isOther with isDeclared | isAdded
  · exact unreserved name isDeclared ⟨_, List.mem_cons_self, rest, same⟩
  · obtain ⟨start, isStart, others, rfl⟩ := composed_of_mem_addedNames isAdded
    rw [String.toList_append] at same
    have sameHead := congrArg List.head? same
    rcases List.mem_pair.mp isStart with rfl | rfl <;> simp at sameHead

end DatabaseDraft

end RelationalAccess
