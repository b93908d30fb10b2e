import RelationalAccess.Proofs.Schema.IndexNames
import RelationalAccess.Proofs.Sql.CreatedDatabase

/-!
The statements that create indices by themselves are carried out only where no index has the name
yet, upper and lower case letters not told apart. None is skipped just where the names of indices
are distinct by that measure.
-/

namespace RelationalAccess

namespace Creation

/-- A name as SQLite compares it, with upper case letters taken for lower case ones. -/
def folded (name : String) : String := String.ofList (name.toList.map Char.toLower)

/-- The name of the index that is created, as it is compared. -/
def indexName? : Creation → Option String
  | table _ _ => none
  | index _ name _ _ => some (folded name)

/-- What is carried out where indices have some names already: an index is skipped if there is
one of its name. -/
def carriedOut (taken : List String) : List Creation → List Creation
  | [] => []
  | creation :: others =>
    match creation.indexName? with
    | none => creation :: carriedOut taken others
    | some name =>
      if name ∈ taken then carriedOut taken others
      else creation :: carriedOut (name :: taken) others

theorem length_carriedOut_le (taken : List String) (creations : List Creation) :
    (carriedOut taken creations).length ≤ creations.length := by
  induction creations generalizing taken with
  | nil => exact Nat.le_refl _
  | cons creation others inductionHypothesis =>
    rw [carriedOut]
    split
    · exact Nat.succ_le_succ (inductionHypothesis taken)
    · split
      · exact Nat.le_succ_of_le (inductionHypothesis taken)
      · exact Nat.succ_le_succ (inductionHypothesis _)

/-- Everything is carried out if and only if the names are distinct, and none is taken. -/
theorem carriedOut_eq_self_iff {taken : List String} {creations : List Creation} :
    carriedOut taken creations = creations ↔ (creations.filterMap indexName?).Nodup ∧
      ∀ name ∈ creations.filterMap indexName?, name ∉ taken := by
  induction creations generalizing taken with
  | nil => simp [carriedOut]
  | cons creation others inductionHypothesis =>
    rw [carriedOut]
    cases isName : creation.indexName? with
    | none => rw [List.filterMap_cons_none isName, List.cons.injEq, inductionHypothesis]; simp
    | some name =>
      rw [List.filterMap_cons_some isName, List.nodup_cons, List.forall_mem_cons]
      dsimp only
      by_cases isTaken : name ∈ taken
      · rw [if_pos isTaken]
        refine iff_of_false (fun same => ?_) fun ⟨_, free, _⟩ => free isTaken
        have short := length_carriedOut_le taken others
        rw [same, List.length_cons] at short
        omega
      · rw [if_neg isTaken, List.cons.injEq, inductionHypothesis]
        simp only [List.mem_cons, not_or, true_and, isTaken, not_false_eq_true]
        grind

end Creation

namespace Creating

/-- The statements of SQLite that create indices. -/
def indexStatements (database : Database) : List Statement :=
  database.tables.flatMap fun table => table.indices.filterMap (index? .sqlite table)

/-- What the statements that create indices are read as. -/
def createdIndices (database : Database) : List Creation :=
  database.tables.flatMap (standaloneIndices .sqlite)

theorem creates_indexStatements (database : Database) :
    List.Forall₂ (Creates .sqlite) (indexStatements database) (createdIndices database) := by
  have same : List.Forall₂ Eq database.tables database.tables := List.forall₂_same.mpr fun _ _ => rfl
  exact List.rel_flatMap same fun table _ same => same ▸ creates_standalone .sqlite table

/-- The names of the indices that are created are those of all but primary keys. -/
theorem createdIndices_names (database : Database) :
    (createdIndices database).filterMap Creation.indexName? =
      ((Linking.labels database.tables).filter fun label => !label.2).map
        (Creation.folded ·.1) := by
  rw [createdIndices, List.filterMap_flatMap, Linking.labels, List.filter_flatMap, List.map_flatMap]
  refine List.flatMap_congr fun table _ => ?_
  rw [standaloneIndices, if_pos rfl, ownIndices, List.filterMap_map, Table.labels, List.filter_map,
    List.map_map]
  have names : Creation.indexName? ∘ createdIndex table = some ∘ (Creation.folded ·.name) := rfl
  rw [names, List.filterMap_eq_map]
  refine congrArg _ (List.filter_congr fun index _ => ?_)
  simp

end Creating

namespace DatabaseDraft

open Creating

variable {draft : DatabaseDraft} {database : Database}

theorem Accepted.createdNames_perm (accepted : draft.Accepted database) :
    ((createdIndices database).filterMap Creation.indexName?).Perm
      ((draft.indexNames ++ draft.addedNames).map Creation.folded) := by
  have names := (accepted.labels_perm.filter fun label => !label.2).map (Creation.folded ·.1)
  rw [createdIndices_names]
  refine names.trans (List.Perm.of_eq ?_)
  simp [List.filter_map, Function.comp_def]

/-- Where the declared names of indices are distinct and none is reserved, the names of all
indices of a built database are distinct if and only if those that foreign keys add are. SQLite
skips none of the statements that create indices just where the names that are declared or added
are distinct as it compares them. -/
theorem indexNames_distinct_iff (built : draft.build = .ok database)
    (distinct : draft.indexNames.Nodup) (unreserved : ∀ name ∈ draft.indexNames, ¬ IsReserved name) :
    (database.indexNames.Nodup ↔ draft.addedNames.Nodup) ∧
      ((database.relations.map (·.constraint)).Nodup ↔ draft.constraintNames.Nodup) ∧
      ∃ creations, List.Forall₂ (Creates .sqlite) (indexStatements database) creations ∧
        (Creation.carriedOut [] creations = creations ↔
          ((draft.indexNames ++ draft.addedNames).map Creation.folded).Nodup) := by
  have accepted := accepted_of_build built
  have constraints : database.relations.map (·.constraint) = draft.constraintNames :=
    map_eq_of_each accepted.joins fun _ _ joins => joins.constraint
  refine ⟨accepted.indexNames_nodup_iff distinct unreserved, by rw [constraints], _,
    creates_indexStatements database, ?_⟩
  rw [Creation.carriedOut_eq_self_iff, accepted.createdNames_perm.nodup_iff]
  simp

theorem indexNames_distinct_iff_catalogue :
    ∃ database, catalogueDraft.build = .ok database ∧ database.indexNames.Nodup ∧
      ¬ (database.relations.map (·.constraint)).Nodup := by
  obtain ⟨database, built⟩ : ∃ database, catalogueDraft.build = .ok database := ⟨_, rfl⟩
  have distinctIff := indexNames_distinct_iff built (by decide) (by decide)
  exact ⟨database, built, distinctIff.1.mpr (by decide), mt distinctIff.2.1.mp (by decide)⟩

/-- Posts with their authors, and persons who took part in writing posts. -/
def journalDraft : DatabaseDraft :=
  { name := "journal"
    tables :=
      [{ name := "person", columns := [{ name := "id", host := .int64, primaryKey := true }] },
       { name := "post"
         columns := [{ name := "author_id", host := .int64 }]
         foreignKeys :=
           [{ column := "author_id", table := "person", references := "id", name := "author"
              inverse := "posts" }] },
       { name := "post_author"
         columns := [{ name := "id", host := .int64 }]
         foreignKeys :=
           [{ column := "id", table := "person", references := "id", name := "person"
              inverse := "contributions" }] }] }

/-- Both foreign keys are named alike, and of the indices that they add SQLite skips the second. -/
theorem journal_not_distinct :
    ∃ database, journalDraft.build = .ok database ∧ journalDraft.indexNames = [] ∧
      ¬ database.indexNames.Nodup ∧ ¬ (database.relations.map (·.constraint)).Nodup ∧
      Creation.carriedOut [] (createdIndices database) ≠ createdIndices database :=
  ⟨_, rfl, rfl, by decide, by decide, by decide⟩

end DatabaseDraft

end RelationalAccess
