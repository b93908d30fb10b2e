import RelationalAccess.Proofs.Schema.Joins
import Mathlib.Data.List.Nodup

/-!
The parts of relations as the indices of a database list them. Where every index lists
exactly the parts that go through it, the two sides of a relation lead to each other, and
the relation parts of a table are the parts that it owns.
-/

namespace RelationalAccess

theorem Relation.mem_parts {relation : Relation} {part : RelationPart} :
    part ∈ relation.parts ↔ ∃ side, relation.part side = part := by
  simp only [Relation.parts, List.mem_cons, List.not_mem_nil, or_false]
  constructor
  · rintro (rfl | rfl)
    · exact ⟨.foreignKey, rfl⟩
    · exact ⟨.candidateKey, rfl⟩
  · rintro ⟨side, rfl⟩
    cases side with
    | foreignKey => exact Or.inl rfl
    | candidateKey => exact Or.inr rfl

namespace RelationPart

/-- The order in which the parts of relations are declared: by relation, the side that refers
first. -/
def DeclaredBefore (earlier later : RelationPart) : Prop :=
  earlier.relation < later.relation ∨
    earlier.relation = later.relation ∧ earlier.side = .foreignKey ∧ later.side = .candidateKey

/-- The order in which a table lists its parts: by index, and on one index as they are declared. -/
def ListedBefore (earlier later : RelationPart) : Prop :=
  earlier.index < later.index ∨ earlier.index = later.index ∧ earlier.DeclaredBefore later

variable {earlier later : RelationPart}

theorem DeclaredBefore.asymm (before : earlier.DeclaredBefore later) :
    ¬ later.DeclaredBefore earlier := by
  rcases before with smaller | ⟨same, isForeign, isCandidate⟩
  · rintro (larger | ⟨same, _⟩) <;> omega
  · rintro (larger | ⟨_, alsoForeign, _⟩)
    · omega
    · rw [isCandidate] at alsoForeign
      cases alsoForeign

theorem DeclaredBefore.ne (before : earlier.DeclaredBefore later) : earlier ≠ later := by
  rintro rfl
  exact before.asymm before

theorem ListedBefore.asymm (before : earlier.ListedBefore later) : ¬ later.ListedBefore earlier := by
  rcases before with smaller | ⟨same, declared⟩
  · rintro (larger | ⟨same, _⟩) <;> omega
  · rintro (larger | ⟨_, declaredToo⟩)
    · omega
    · exact declared.asymm declaredToo

theorem ListedBefore.ne (before : earlier.ListedBefore later) : earlier ≠ later := by
  rintro rfl
  exact before.asymm before

end RelationPart

/-- The parts of all relations of a database. -/
def Database.parts (database : Database) : List RelationPart :=
  database.relations.flatMap Relation.parts

/-- Every relation of some knows its place among them. -/
def Relation.AllNumbered (relations : List Relation) : Prop :=
  ∀ (position : Nat) (relation : Relation), relations[position]? = some relation →
    relation.Numbered position

namespace Linking

variable {relations : List Relation} (numbered : Relation.AllNumbered relations)
include numbered

/-- A part of some relations is the part of the relation and the side that it names. -/
theorem part_mem {part : RelationPart} :
    part ∈ relations.flatMap Relation.parts ↔
      ∃ relation, relations[part.relation]? = some relation ∧ relation.part part.side = part := by
  simp only [List.mem_flatMap, Relation.mem_parts]
  constructor
  · rintro ⟨relation, membership, side, rfl⟩
    obtain ⟨position, found⟩ := List.mem_iff_getElem?.mp membership
    have isNumbered := numbered position relation found
    exact ⟨relation, by rw [isNumbered.number, found], by rw [isNumbered.side]⟩
  · rintro ⟨relation, found, same⟩
    exact ⟨relation, List.mem_of_getElem? found, part.side, same⟩

/-- An index lists a side of a relation exactly if that part goes through it. -/
theorem mem_partsThrough {table index number : Nat} {side : Side} :
    (number, side) ∈ partsThrough relations table index ↔
      ∃ relation, relations[number]? = some relation ∧ (relation.part side).table = table ∧
        (relation.part side).index = index := by
  simp only [partsThrough, List.mem_map, List.mem_filter, part_mem numbered, decide_eq_true_eq]
  constructor
  · rintro ⟨part, ⟨⟨relation, found, same⟩, onTable, onIndex⟩, isEntry⟩
    obtain ⟨rfl, rfl⟩ := Prod.mk.inj isEntry
    exact ⟨relation, found, (congrArg RelationPart.table same).trans onTable,
      (congrArg RelationPart.index same).trans onIndex⟩
  · rintro ⟨relation, found, onTable, onIndex⟩
    have isNumbered := numbered number relation found
    refine ⟨relation.part side, ⟨⟨relation, ?_, ?_⟩, onTable, onIndex⟩, ?_⟩
    · rw [isNumbered.number, found]
    · rw [isNumbered.side]
    · rw [isNumbered.number, isNumbered.side]

/-- The parts of relations stand in the order in which they are declared. -/
theorem parts_declared : (relations.flatMap Relation.parts).Pairwise RelationPart.DeclaredBefore := by
  rw [List.pairwise_flatMap]
  constructor
  · intro relation membership
    obtain ⟨position, found⟩ := List.mem_iff_getElem?.mp membership
    have isNumbered := numbered position relation found
    have foreignFirst : relation.foreignKey.DeclaredBefore relation.candidateKey :=
      .inr ⟨(isNumbered.number .foreignKey).trans (isNumbered.number .candidateKey).symm,
        isNumbered.side .foreignKey, isNumbered.side .candidateKey⟩
    simpa [Relation.parts] using foreignFirst
  · refine List.pairwise_iff_getElem.mpr fun first second firstInside secondInside before => ?_
    have firstNumbered := numbered first _ (List.getElem?_eq_getElem firstInside)
    have secondNumbered := numbered second _ (List.getElem?_eq_getElem secondInside)
    intro part isPart other isOther
    obtain ⟨side, rfl⟩ := Relation.mem_parts.mp isPart
    obtain ⟨otherSide, rfl⟩ := Relation.mem_parts.mp isOther
    left
    rw [firstNumbered.number, secondNumbered.number]
    exact before

/-- No index lists a side of a relation twice. -/
theorem partsThrough_nodup (table index : Nat) : (partsThrough relations table index).Nodup := by
  refine List.Nodup.sublist (List.filter_sublist.map _) (List.pairwise_map.mpr ?_)
  refine (parts_declared numbered).imp fun {part other} before same => before.asymm ?_
  obtain ⟨sameNumber, sameSide⟩ := Prod.mk.inj same
  simpa only [RelationPart.DeclaredBefore, sameNumber, sameSide] using before

end Linking

namespace Database

variable {database : Database}

/-- Every index of a database lists exactly the parts that go through it, each once, and
every part goes through an index that exists. -/
structure Listed (database : Database) : Prop where
  numbered : Relation.AllNumbered database.relations
  listed : ∀ (position place : Nat) (table : Table) (index : Index),
    database.tables[position]? = some table → table.indices[place]? = some index →
      index.parts = Linking.partsThrough database.relations position place
  isThere : ∀ part ∈ database.parts, ∃ table index, database.tables[part.table]? = some table ∧
    table.indices[part.index]? = some index

namespace Listed

theorem parts_nodup (isListed : database.Listed) : database.parts.Nodup :=
  (Linking.parts_declared isListed.numbered).imp RelationPart.DeclaredBefore.ne

/-- The other side of the other side of a part is the part. -/
theorem otherSide? (isListed : database.Listed) {part : RelationPart} (isPart : part ∈ database.parts) :
    ∃ other ∈ database.parts, other.side = part.side.other ∧
      database.otherSide? part = some other ∧ database.otherSide? other = some part := by
  obtain ⟨relation, found, same⟩ := (Linking.part_mem isListed.numbered).mp isPart
  have isNumbered := isListed.numbered _ _ found
  have side := isNumbered.side part.side.other
  have number := isNumbered.number part.side.other
  refine ⟨relation.part part.side.other, ?_, side, ?_, ?_⟩
  · exact (Linking.part_mem isListed.numbered).mpr ⟨relation, by rw [number, found], by rw [side]⟩
  · rw [Database.otherSide?, found, Option.map_some]
  · rw [Database.otherSide?, number, found, Option.map_some, side, Side.other_other, same]

/-- The parts of an index, followed to their relations, are those that go through it. -/
theorem followed_eq (isListed : database.Listed) {position place : Nat} {table : Table}
    {index : Index} (found : database.tables[position]? = some table)
    (isThere : table.indices[place]? = some index) :
    index.parts.filterMap (fun (relation, side) =>
        database.relations[relation]?.map (·.part side)) =
      database.parts.filter fun part => decide (part.table = position ∧ part.index = place) := by
  rw [isListed.listed position place table index found isThere, Linking.partsThrough,
    List.filterMap_map]
  refine (List.filterMap_congr fun part membership => ?_).trans List.filterMap_some
  obtain ⟨relation, isNumber, same⟩ :=
    (Linking.part_mem isListed.numbered).mp (List.mem_of_mem_filter membership)
  dsimp only [Function.comp_apply]
  rw [isNumber, Option.map_some, same]

theorem mem_followed (isListed : database.Listed) {position place : Nat} {table : Table}
    {index : Index} (found : database.tables[position]? = some table)
    (isThere : table.indices[place]? = some index) {part : RelationPart} :
    part ∈ index.parts.filterMap (fun (relation, side) =>
        database.relations[relation]?.map (·.part side)) ↔
      part ∈ database.parts ∧ part.table = position ∧ part.index = place := by
  rw [isListed.followed_eq found isThere, List.mem_filter, decide_eq_true_eq]

/-- The relation parts of a table are all the parts that it owns. -/
theorem mem_relationParts (isListed : database.Listed) {position : Nat} {part : RelationPart} :
    part ∈ database.relationParts position ↔ part ∈ database.parts ∧ part.table = position := by
  unfold relationParts
  split
  · next noTable =>
    refine iff_of_false List.not_mem_nil fun ⟨isPart, onTable⟩ => ?_
    obtain ⟨table, _, found, _⟩ := isListed.isThere part isPart
    rw [onTable, noTable] at found
    cases found
  · next table found =>
    rw [List.mem_flatMap]
    constructor
    · rintro ⟨index, membership, followed⟩
      obtain ⟨place, isThere⟩ := List.mem_iff_getElem?.mp membership
      obtain ⟨isPart, onTable, _⟩ := (isListed.mem_followed found isThere).mp followed
      exact ⟨isPart, onTable⟩
    · rintro ⟨isPart, onTable⟩
      obtain ⟨owner, index, isOwner, isThere⟩ := isListed.isThere part isPart
      rw [onTable, found] at isOwner
      obtain rfl := Option.some.inj isOwner
      exact ⟨index, List.mem_of_getElem? isThere,
        (isListed.mem_followed found isThere).mpr ⟨isPart, onTable, rfl⟩⟩

/-- A table lists its parts index by index, and those of an index as they are declared. -/
theorem relationParts_ordered (isListed : database.Listed) (position : Nat) :
    (database.relationParts position).Pairwise RelationPart.ListedBefore := by
  unfold relationParts
  split
  · exact .nil
  · next table found =>
    rw [List.pairwise_flatMap]
    constructor
    · intro index membership
      obtain ⟨place, isThere⟩ := List.mem_iff_getElem?.mp membership
      rw [isListed.followed_eq found isThere]
      refine ((Linking.parts_declared isListed.numbered).filter _).imp_of_mem
        fun isPart isOther before => .inr ⟨?_, before⟩
      rw [(of_decide_eq_true (List.mem_filter.mp isPart).2).2,
        (of_decide_eq_true (List.mem_filter.mp isOther).2).2]
    · refine List.pairwise_iff_getElem.mpr fun first second firstInside secondInside before => ?_
      intro part ofFirst other ofSecond
      obtain ⟨_, _, atFirst⟩ :=
        (isListed.mem_followed found (List.getElem?_eq_getElem firstInside)).mp ofFirst
      obtain ⟨_, _, atSecond⟩ :=
        (isListed.mem_followed found (List.getElem?_eq_getElem secondInside)).mp ofSecond
      left
      rw [atFirst, atSecond]
      exact before

/-- No table has a relation part twice. -/
theorem relationParts_nodup (isListed : database.Listed) (position : Nat) :
    (database.relationParts position).Nodup :=
  (isListed.relationParts_ordered position).imp RelationPart.ListedBefore.ne

end Listed

end Database

end RelationalAccess
