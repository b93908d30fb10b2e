import RelationalAccess.Proofs.DataSource.Navigation
import RelationalAccess.Proofs.Schema.Coherence

/-!
The names by which relations are followed. Of the parts that a table owns under one name only
the first in the order of its indices is ever found, so a relation is followed by both its names
exactly where no other end of a relation has one of them on the same table.
-/

namespace RelationalAccess

namespace Database

open DataSource

/-- A part of a relation is what its table has under its name. -/
def Finds (database : Database) (part : RelationPart) : Prop :=
  database.relationPart? part.table part.name = some part

instance (database : Database) (part : RelationPart) : Decidable (database.Finds part) :=
  inferInstanceAs (Decidable (_ = _))

/-- Wherever rows are followed by the name of a side of a relation, they lead to the rows that
have their value on the other side of that relation. -/
def Follows (database : Database) (relation : Relation) (side : Side) : Prop :=
  ∀ {World : Type} {backend : Backend World} {contents : World → Store} {origin : DataSource}
    {world : World} {near far : Table} {row : Row},
    origin.cache.database = database →
    database.tables[(relation.part side).table]? = some near →
    database.tables[(relation.part side.other).table]? = some far →
    (near.columns[near.partColumn (relation.part side)]?).map Column.host =
      (far.columns[far.partColumn (relation.part side.other)]?).map Column.host →
    near.Content origin.dialect (contents world near.id) →
    Reaches backend contents origin world far →
    near.Has (contents world near.id) row →
      ∃ rows state, related backend row (relation.part side).name (origin, world) = (.ok rows, state) ∧
        far.Loaded rows (Table.rowsWith (contents world far.id)
          (far.partColumn (relation.part side.other))
          (row.values.getD (near.partColumn (relation.part side)) .null))

variable {database : Database}

namespace Listed

/-- What a table has under a name is the first of the parts that it owns under it. -/
theorem relationPart?_eq_some_iff (isListed : database.Listed) {position : Nat} {name : String}
    {part : RelationPart} :
    database.relationPart? position name = some part ↔
      (part ∈ database.parts ∧ part.table = position) ∧ part.name = name ∧
        ∀ other ∈ database.parts, other.table = position → other.name = name →
          ¬ other.ListedBefore part := by
  rw [relationPart?, find?_eq_some_iff_of_ordered (isListed.relationParts_ordered position)
    RelationPart.ListedBefore.asymm]
  simp only [isListed.mem_relationParts, beq_iff_eq, and_imp]

/-- A part is found by its name unless its table lists another of that name before it. -/
theorem finds_iff (isListed : database.Listed) {part : RelationPart} (isPart : part ∈ database.parts) :
    database.Finds part ↔ ∀ other ∈ database.parts, other.table = part.table →
      other.name = part.name → ¬ other.ListedBefore part := by
  rw [Finds, isListed.relationPart?_eq_some_iff]
  simp [isPart]

/-- Parts are all found by their names if and only if no two of one table have one name. -/
theorem finds_all_iff (isListed : database.Listed) :
    (∀ part ∈ database.parts, database.Finds part) ↔
      ∀ part ∈ database.parts, ∀ other ∈ database.parts, part.table = other.table →
        part.name = other.name → part = other := by
  constructor
  · intro found part isPart other isOther sameTable sameName
    have isFound : database.relationPart? part.table part.name = some part := found part isPart
    rw [sameTable, sameName] at isFound
    exact Option.some.inj (isFound.symm.trans (found other isOther))
  · intro alone part isPart
    rw [isListed.finds_iff isPart]
    intro other isOther sameTable sameName isBefore
    exact isBefore.ne (alone other isOther part isPart sameTable sameName)

end Listed

end Database

namespace DatabaseDraft

open Database

variable {draft : DatabaseDraft} {database : Database}

/-- The names that foreign keys declare for following them, each with the table that it is for:
one from the table that refers, one from that which is referred to. -/
def navigationNames (draft : DatabaseDraft) : List (String × String) :=
  (Linking.foreignKeys draft.tables).flatMap fun (_, table, key) =>
    [(table, key.name), (key.table, key.inverse)]

/-- The names of the parts, each with the name of its table, are those that are declared. -/
theorem Coherent.navigationNames_eq (coherent : draft.Coherent database) :
    draft.navigationNames = database.parts.map fun part =>
      (((database.tables[part.table]?).map (·.name)).getD "", part.name) := by
  rw [navigationNames, Database.parts, List.map_flatMap]
  symm
  have each := (List.forall₂_and_left _ _).mpr
    ⟨fun declared membership => Linking.mem_foreignKeys.mp membership, coherent.relations⟩
  refine flatMap_eq_of_each each fun declared relation related => ?_
  obtain ⟨⟨table, isDrafted, isNamed, _⟩, joins⟩ := related
  obtain ⟨referring, _, _, isReferring, _⟩ := joins.foreignKey
  obtain ⟨referred, isReferred, sameName⟩ := joins.referred
  obtain ⟨_, owner, isOwner, describes⟩ := coherent.tables _ referring isReferring
  rw [joins.referring, isDrafted] at isOwner
  obtain rfl := Option.some.inj isOwner
  simp [Relation.parts, isReferring, isReferred, joins.names, sameName, describes.name, isNamed]

/-- Relations of a built database are found by both their names if and only if no two names are
declared alike for one table. -/
theorem Coherent.finds_all_iff (coherent : draft.Coherent database) (isListed : database.Listed) :
    (∀ part ∈ database.parts, database.Finds part) ↔ draft.navigationNames.Nodup := by
  rw [isListed.finds_all_iff, coherent.navigationNames_eq,
    List.nodup_map_iff_inj_on isListed.parts_nodup]
  refine forall₂_congr fun part isPart => forall₂_congr fun other isOther => ?_
  obtain ⟨table, _, isTable, _⟩ := isListed.isThere part isPart
  obtain ⟨otherTable, _, isOtherTable, _⟩ := isListed.isThere other isOther
  have sameTable : table.name = otherTable.name ↔ part.table = other.table := by
    constructor
    · exact place_eq_of_distinct coherent.tableNames isTable isOtherTable
    · intro same
      rw [same, isOtherTable] at isTable
      rw [Option.some.inj isTable]
  simp only [isTable, isOtherTable, Option.map_some, Option.getD_some, Prod.mk.injEq, sameTable,
    and_imp]

/-- A side of a relation of a built database is found by its name unless its table lists another
of that name before it, and rows are then followed along that relation. All sides are found
if and only if no two names are declared alike for one table. -/
theorem finds_iff_distinct (built : draft.build = .ok database) :
    (∀ relation ∈ database.relations, ∀ side,
      (database.Finds (relation.part side) ↔ ∀ other ∈ database.parts,
        other.table = (relation.part side).table → other.name = (relation.part side).name →
          ¬ other.ListedBefore (relation.part side)) ∧
      (database.Finds (relation.part side) → database.Follows relation side)) ∧
    ((∀ relation ∈ database.relations, ∀ side, database.Finds (relation.part side)) ↔
      draft.navigationNames.Nodup) := by
  have isListed := (accepted_of_build built).listed
  have isPart {relation : Relation} (isRelation : relation ∈ database.relations) (side : Side) :
      relation.part side ∈ database.parts :=
    List.mem_flatMap.mpr ⟨relation, isRelation, Relation.mem_parts.mpr ⟨side, rfl⟩⟩
  refine ⟨fun relation isRelation side => ⟨isListed.finds_iff (isPart isRelation side), ?_⟩, ?_⟩
  · rintro found World backend contents origin world near far row rfl isNear isFar sameHost content
      reaches has
    exact DataSource.related_follows built isRelation side found isNear isFar sameHost content
      reaches has
  · rw [← (build_coherent built).finds_all_iff isListed]
    constructor
    · intro found part membership
      obtain ⟨relation, isRelation, isItsPart⟩ := List.mem_flatMap.mp membership
      obtain ⟨side, rfl⟩ := Relation.mem_parts.mp isItsPart
      exact found relation isRelation side
    · exact fun found relation isRelation side => found _ (isPart isRelation side)

/-- Shipments that go from one person to another, and the name by which a person leads to those
that it receives. Those that it sends are its shipments. -/
def shipmentsDraft (received : String) : DatabaseDraft :=
  { name := "post"
    tables :=
      [{ name := "people", columns := [{ name := "id", host := .int64, primaryKey := true }] },
       { name := "shipments"
         columns := [{ name := "sender", host := .int64 }, { name := "receiver", host := .int64 }]
         foreignKeys :=
           [{ column := "sender", table := "people", references := "id", name := "sent_by"
              inverse := "shipments" },
            { column := "receiver", table := "people", references := "id", name := "sent_to"
              inverse := received }] }] }

theorem finds_iff_distinct_shipments :
    ∃ database, (shipmentsDraft "deliveries").build = .ok database ∧
      ∀ relation ∈ database.relations, ∀ side, database.Finds (relation.part side) := by
  obtain ⟨database, built⟩ : ∃ database, (shipmentsDraft "deliveries").build = .ok database :=
    ⟨_, rfl⟩
  exact ⟨database, built, (finds_iff_distinct built).2.mpr (by decide)⟩

/-- Where shipments are named alike from both ends, those that are received are not found. -/
theorem shipments_not_finds :
    ∃ database, (shipmentsDraft "shipments").build = .ok database ∧
      ∃ relation ∈ database.relations,
        database.relationPart? relation.candidateKey.table relation.candidateKey.name ≠
          some relation.candidateKey :=
  ⟨_, rfl, _, .tail _ (.head _), by decide⟩

end DatabaseDraft

end RelationalAccess
