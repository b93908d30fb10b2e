import RelationalAccess.Proofs.Sql.Conversion
import RelationalAccess.Proofs.Sql.Operands
import RelationalAccess.Proofs.Sql.WhereClause

/-!
Which of the predicates that are lowered come to a statement in a built database, and what it
binds. A column of labels is given nothing but its labels, and the pattern of a match has to be one
of them too.
-/

namespace RelationalAccess

/-- An operand for a column of labels is null or a label of it. -/
def Table.Labels (table : Table) (operand : Nat × Value) : Prop :=
  ∀ column labels, table.columns[operand.1]? = some column → column.host = .labelled labels →
    operand.2 = .null ∨ ∃ label ∈ labels, operand.2 = .text label

section

variable {dialect : Dialect} {table : Table} {column : Column} {position : Nat} {text : String}
  {value bound : Value}

theorem Column.checkWritten_text_iff :
    column.checkWritten (.text text) = .ok () ↔
      ∀ labels, column.host = .labelled labels → text ∈ labels := by
  unfold checkWritten
  split
  · next labels given isLabelled isText =>
    cases isText
    simp [isLabelled]
  · next notLabelled =>
    exact ⟨fun _ labels isLabelled => absurd rfl (notLabelled labels text isLabelled), fun _ => rfl⟩

theorem Table.Labels.checkWritten (isLabel : table.Labels (position, value))
    (found : table.columns[position]? = some column) : column.checkWritten value = .ok () := by
  cases value with
  | text text =>
    refine Column.checkWritten_text_iff.mpr fun labels isLabelled => ?_
    rcases isLabel column labels found isLabelled with isNull | ⟨label, listed, same⟩
    · cases isNull
    · cases same
      exact listed
  | _ => cases isHost : column.host <;> simp [Column.checkWritten, isHost]

/-- A text is bound as it is. -/
theorem Dialect.write_text (written : dialect.write column (.text text) = .ok bound) :
    column.checkWritten (.text text) = .ok () ∧ bound = .text text := by
  obtain ⟨_, checked, further⟩ := ok_of_bind written
  refine ⟨ok_of_mapError checked, ?_⟩
  cases dialect with
  | sqlite =>
    cases further
    rfl
  | mySql =>
    obtain ⟨_, _, made⟩ := ok_of_bind further
    cases made
    rfl
  | mariaDb =>
    obtain ⟨_, _, made⟩ := ok_of_bind further
    cases made
    rfl

theorem Table.Labels.writes (isLabel : table.Labels (position, value))
    (found : table.columns[position]? = some column) (typed : column.Typed dialect.engine) :
    ∃ bound, table.Writes dialect (position, value) bound := by
  obtain ⟨bound, written⟩ := Dialect.write_succeeds typed (isLabel.checkWritten found)
  exact ⟨bound, column, found, written⟩

/-- A text that can be written for a column of labels is a label. -/
theorem Table.labels_of_writes (writes : table.Writes dialect (position, .text text) bound) :
    table.Labels (position, .text text) := by
  obtain ⟨column, found, written⟩ := writes
  intro other labels isColumn isLabelled
  cases found.symm.trans isColumn
  have listed := Column.checkWritten_text_iff.mp (Dialect.write_text written).1 labels isLabelled
  exact .inr ⟨text, listed, rfl⟩

/-- What a match asks for is its pattern. -/
theorem Predicate.asked_of_pattern? {leaf : Predicate}
    (isPattern : leaf.pattern? table = some (position, text)) :
    leaf.asked table = [(position, .text text)] := by
  have isMatch := isPattern
  unfold pattern? at isMatch
  split at isMatch
  · split at isMatch
    · next isField _ =>
      cases isMatch
      simp [asked, listed?_of_field isField, isPattern]
    · cases isMatch
  · cases isMatch

end

/-- What comparisons ask for is for columns of the table. -/
theorem Asks.found {table : Table} {operands : List (Nat × Value)} {comparisons : List Comparison}
    (asks : Asks table operands comparisons) {operand : Nat × Value} (listed : operand ∈ operands) :
    ∃ column, table.columns[operand.1]? = some column := by
  rw [← asks.operands] at listed
  obtain ⟨comparison, isListed, isRead⟩ := List.mem_flatMap.mp listed
  obtain ⟨value, _, rfl⟩ := List.mem_map.mp isRead
  exact asks.placed comparison isListed

/-- Comparisons can be written exactly if all operands that they ask for can be. -/
theorem Asks.writable_iff {dialect : Dialect} {table : Table} {operands : List (Nat × Value)}
    {filter : Filter} (asks : Asks table operands filter.toCondition.comparisons) :
    filter.Writable dialect table ↔
      ∀ operand ∈ operands, ∃ bound, table.Writes dialect operand bound := by
  rw [← asks.operands]
  constructor
  · intro writable operand listed
    obtain ⟨comparison, isListed, isRead⟩ := List.mem_flatMap.mp listed
    obtain ⟨value, isAsked, rfl⟩ := List.mem_map.mp isRead
    obtain ⟨column, found, each⟩ := writable comparison isListed
    obtain ⟨bound, written⟩ := each value isAsked
    exact ⟨bound, column, found, written⟩
  · intro each comparison isListed
    obtain ⟨column, found⟩ := asks.placed comparison isListed
    refine ⟨column, found, fun value isAsked => ?_⟩
    obtain ⟨bound, other, isColumn, written⟩ := each (comparison.column, value)
      (List.mem_flatMap.mpr ⟨comparison, isListed, List.mem_map.mpr ⟨value, isAsked, rfl⟩⟩)
    cases found.symm.trans isColumn
    exact ⟨bound, written⟩

/-- A filter with members has pieces exactly if it can be written. -/
theorem Query.filterPieces_iff {dialect : Dialect} {query : Query} {filter : Filter}
    (filtered : query.filter = some filter) (present : filter.members ≠ []) :
    (∃ pieces, query.filterPieces dialect = .ok pieces) ↔ filter.Writable dialect query.table := by
  rw [filterPieces_eq filtered present]
  constructor
  · rintro ⟨clause, isClause⟩
    obtain ⟨pieces, isCondition, _⟩ := ok_of_bind isClause
    exact (Condition.writes_of_pieces filter.toCondition isCondition).1
  · intro writable
    obtain ⟨pieces, isCondition, _⟩ := Condition.reads_pieces filter.toCondition writable
    exact ⟨.words " WHERE " :: pieces, by rw [Filter.pieces, isCondition]; rfl⟩

namespace DatabaseDraft

/-- A predicate that is lowered, of which the constants for columns of labels are null or labels,
comes to a statement exactly if each pattern for such a column happens to be a label. What the
statement binds are the operands of the leaves, the patterns as they are. -/
theorem patterns_bound_iff {draft : DatabaseDraft} {database : Database} {table : Table}
    {predicate : Predicate} {filter : Filter} (built : draft.build = .ok database)
    (isTable : table ∈ database.tables) (lowered : predicate.lower table = .ok filter)
    (labelled : ∀ leaf ∈ predicate.leaves, leaf.pattern? table = none →
      ∀ operand ∈ leaf.asked table, table.Labels operand)
    (dialect : Dialect) (query : Query) (onTable : query.table = table)
    (filtered : query.filter = some filter) :
    ((∃ statement, query.statement dialect = .ok statement) ↔
        (query.projection = .keys → table.hasPrimaryKey = true) ∧
          ∀ leaf ∈ predicate.leaves, ∀ position pattern,
            leaf.pattern? table = some (position, pattern) →
              table.Labels (position, .text pattern)) ∧
      ∀ statement, query.statement dialect = .ok statement →
        List.Forall₂
          (fun operand bound => table.Writes dialect operand bound ∧
            ∀ text, operand.2 = .text text → bound = .text text)
          (predicate.leaves.flatMap (Predicate.asked table))
          (statement.parameters.map Prod.snd) := by
  subst onTable
  have asks := Predicate.asks_of_lower lowered
  obtain ⟨_, _, present, _⟩ := Predicate.populated_of_lower lowered
  constructor
  · rw [Query.statement_iff, Query.filterPieces_iff filtered present, asks.writable_iff]
    refine and_congr_right fun _ => ⟨fun writes leaf isLeaf position pattern isPattern => ?_,
      fun patterns operand listed => ?_⟩
    · -- the pattern is an operand like any other, and is checked like one
      have isAsked : (position, .text pattern) ∈ leaf.asked query.table := by
        rw [Predicate.asked_of_pattern? isPattern]
        exact List.mem_singleton_self _
      obtain ⟨bound, isWritten⟩ := writes _ (List.mem_flatMap.mpr ⟨leaf, isLeaf, isAsked⟩)
      exact Table.labels_of_writes isWritten
    · obtain ⟨leaf, isLeaf, isAsked⟩ := List.mem_flatMap.mp listed
      obtain ⟨column, found⟩ := asks.found listed
      have typed := (accepted_of_build built).typed isTable (List.mem_of_getElem? found)
        dialect.engine_isConcrete
      suffices isLabel : query.table.Labels operand from isLabel.writes found typed
      cases isMatch : leaf.pattern? query.table with
      | none => exact labelled leaf isLeaf isMatch operand isAsked
      | some placed =>
        obtain ⟨position, pattern⟩ := placed
        rw [Predicate.asked_of_pattern? isMatch, List.mem_singleton] at isAsked
        exact isAsked ▸ patterns leaf isLeaf position pattern isMatch
  · intro statement isMade
    have bound := (Statement.parameters_of_carries isMade fun _ => Query.carries_pieces).2.2
    have operands : query.operandsRead =
        predicate.leaves.flatMap (Predicate.asked query.table) := by
      rw [Query.operandsRead, filtered]
      exact asks.operands
    rw [operands] at bound
    refine bound.imp ?_
    rintro ⟨position, value⟩ written ⟨column, found, isWritten⟩
    refine ⟨⟨column, found, isWritten⟩, ?_⟩
    rintro text rfl
    exact (Dialect.write_text isWritten).2

/-- Users with a name and a role, which is one of two labels. -/
def usersDraft : DatabaseDraft where
  name := "app"
  tables :=
    [{ name := "users"
       columns := [{ name := "id", host := .int64, primaryKey := true },
         { name := "role", host := .labelled ["Admin", "User"] },
         { name := "name", host := .string }] }]

/-- Asking for the roles that start with a text is refused, for the pattern is no role. -/
theorem roleStart_refused :
    let starts := (Predicate.field "role").finds .atStart "Ad"
    ∃ database table filter, usersDraft.build = .ok database ∧ table ∈ database.tables ∧
      starts.lower table = .ok filter ∧
      (∀ leaf ∈ starts.leaves, leaf.pattern? table = none →
        ∀ operand ∈ leaf.asked table, table.Labels operand) ∧
      ({ table, projection := .all, filter := some filter } : Query).statement .sqlite =
        .error (.conversion (.notALabel "Ad%" "role")) := by
  refine ⟨_, _, _, rfl, List.mem_singleton_self _, rfl, ?_, rfl⟩
  intro leaf isLeaf noPattern
  obtain rfl := List.mem_singleton.mp isLeaf
  cases noPattern

/-- A role is compared with a label of it and a name with a pattern: both are bound as they are. -/
theorem patterns_bound_iff_users :
    let admins := Predicate.compare .eq (.field "role") (.constant (.text "Admin"))
    let named := (Predicate.field "name").finds .atStart "A_"
    ∃ database table filter, usersDraft.build = .ok database ∧ table ∈ database.tables ∧
      (Predicate.join .and admins named).lower table = .ok filter ∧
      ∃ statement,
        ({ table, projection := .all, filter := some filter } : Query).statement .sqlite =
          .ok statement ∧
        statement.parameters.map Prod.snd = [.text "Admin", .text "A\\_%"] := by
  intro admins named
  obtain ⟨database, table, filter, built, isTable, lowered, isRole, areLabels, isPattern, isText⟩ :
      ∃ database table filter, usersDraft.build = .ok database ∧ table ∈ database.tables ∧
        (Predicate.join .and admins named).lower table = .ok filter ∧
        admins.asked table = [(1, .text "Admin")] ∧
        (table.columns[1]?.map (·.host)) = some (.labelled ["Admin", "User"]) ∧
        named.pattern? table = some (2, "A\\_%") ∧
        (table.columns[2]?.map (·.host)) = some .string :=
    ⟨_, _, _, rfl, List.mem_singleton_self _, rfl, rfl, rfl, rfl, rfl⟩
  have isLabel : table.Labels (1, .text "Admin") := by
    intro column labels found isLabelled
    rw [found] at areLabels
    cases isLabelled.symm.trans (Option.some.inj areLabels)
    exact .inr ⟨"Admin", List.mem_cons_self, rfl⟩
  have noLabels : table.Labels (2, .text "A\\_%") := by
    intro column labels found isLabelled
    rw [found] at isText
    cases isLabelled.symm.trans (Option.some.inj isText)
  have leaves : (Predicate.join .and admins named).leaves = [admins, named] := rfl
  have labelled : ∀ leaf ∈ (Predicate.join .and admins named).leaves, leaf.pattern? table = none →
      ∀ operand ∈ leaf.asked table, table.Labels operand := by
    intro leaf isLeaf noPattern operand isAsked
    rcases List.mem_pair.mp (leaves ▸ isLeaf) with rfl | rfl
    · rw [isRole, List.mem_singleton] at isAsked
      exact isAsked ▸ isLabel
    · cases isPattern.symm.trans noPattern
  obtain ⟨made, binds⟩ := patterns_bound_iff built isTable lowered labelled .sqlite
    { table, projection := .all, filter := some filter } rfl rfl
  obtain ⟨statement, isMade⟩ := made.mpr ⟨nofun, by
    intro leaf isLeaf position pattern isMatch
    rcases List.mem_pair.mp (leaves ▸ isLeaf) with rfl | rfl
    · cases isMatch
    · cases isPattern.symm.trans isMatch
      exact noLabels⟩
  refine ⟨database, table, filter, built, isTable, lowered, statement, isMade, ?_⟩
  have asked : (Predicate.join .and admins named).leaves.flatMap (Predicate.asked table) =
      [(1, .text "Admin"), (2, .text "A\\_%")] := by
    rw [leaves, List.flatMap_cons, List.flatMap_singleton, isRole,
      Predicate.asked_of_pattern? isPattern]
    rfl
  have bound := binds statement isMade
  rw [asked] at bound
  obtain ⟨role, others, ⟨_, roleBound⟩, further, parameters⟩ := List.forall₂_cons_left_iff.mp bound
  obtain ⟨name, rest, ⟨_, nameBound⟩, last, rfl⟩ := List.forall₂_cons_left_iff.mp further
  rw [parameters, roleBound _ rfl, nameBound _ rfl, List.forall₂_nil_left_iff.mp last]

end DatabaseDraft

end RelationalAccess
