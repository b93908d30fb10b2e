import RelationalAccess.Proofs.Outcome
import RelationalAccess.Proofs.Query.Membership
import RelationalAccess.Proofs.Sql.SelectText
import RelationalAccess.Row

/-!
The rows that the statement of a query selects, against those on which its filter holds.
An engine has one value for each column of a row, in the form in which it is bound.
-/

namespace RelationalAccess

/-- What a test says of a row. -/
def Test.truth (relations : Relations) (cells : String → Value) (test : Test) : Truth :=
  Comparison.plainTruth relations [cells test.column]
    { column := 0, operator := test.operator, operands := test.operands }

/-- Whether a query selects a row: its condition holds on it, if it has one. -/
def ReadQuery.Selects (relations : Relations) (cells : String → Value) (query : ReadQuery) : Prop :=
  ∀ condition ∈ query.condition,
    condition.truthBy (fun _ => Test.truth relations cells) = .holds

/-- The row of a table whose columns have some values, in the order of the columns. -/
def Table.rowOf (table : Table) (cells : String → Value) : List Value :=
  table.columns.map fun column => cells column.name

/-- A comparison with the bound forms of its operands. -/
def Comparison.bound (dialect : Dialect) (table : Table) (comparison : Comparison) : Comparison :=
  { comparison with
    operands := comparison.asked.map (table.boundForm dialect comparison.column) }

/-- What a filter says of a stored row. -/
def Filter.storedTruth (dialect : Dialect) (table : Table) (relations : Relations)
    (cells : String → Value) (filter : Filter) : Truth :=
  filter.toCondition.truth fun comparison =>
    (comparison.bound dialect table).truth relations (table.rowOf cells)

section

variable {dialect : Dialect} {table : Table} {relations : Relations} {cells : String → Value}

theorem Table.rowOf_getD {position : Nat} {column : Column}
    (found : table.columns[position]? = some column) :
    (table.rowOf cells).getD position .null = cells column.name := by
  simp [rowOf, List.getD_eq_getElem?_getD, found]

/-- A comparison that says the same of all rows says so of stored ones. -/
theorem Comparison.plainTruth_bound {comparison : Comparison} {holds : Bool}
    (isConstant : comparison.constant? = some holds) (row : List Value) :
    (comparison.bound dialect table).plainTruth relations row = .ofBool holds := by
  obtain ⟨position, operator, operands, negated⟩ := comparison
  cases operator with
  | isIn =>
    obtain ⟨rfl, rfl⟩ : operands = [] ∧ holds = false := by simpa [constant?] using isConstant
    rfl
  | isNotIn =>
    obtain ⟨rfl, rfl⟩ : operands = [] ∧ holds = true := by simpa [constant?] using isConstant
    rfl
  | _ => cases isConstant

/-- A comparison says of a stored row what its test says of it. -/
theorem Comparison.truthBy_test {comparison : Comparison} {column : Column}
    (found : table.columns[comparison.column]? = some column) :
    comparison.truthBy ((comparison.test dialect table).truth relations cells) =
      (comparison.bound dialect table).truth relations (table.rowOf cells) := by
  have named : table.nameAt comparison.column = column.name := by simp [Table.nameAt, found]
  have cell : (table.rowOf cells).getD comparison.column .null = _ := Table.rowOf_getD found
  have plain : (comparison.test dialect table).truth relations cells =
      (comparison.bound dialect table).plainTruth relations (table.rowOf cells) := by
    simp only [Test.truth, plainTruth, test, bound, named, cell]
    rfl
  rw [truthBy, truth, plain]
  cases constant : comparison.constant? with
  | none => rfl
  | some holds => rw [plainTruth_bound constant]; rfl

/-- The condition of a filter holds on the stored rows on which the filter holds. -/
theorem Filter.truthBy_expression {filter : Filter} (writable : filter.Writable dialect table) :
    (filter.toCondition.expression.map (Comparison.test dialect table)).truthBy
        (fun _ => Test.truth relations cells) =
      filter.storedTruth dialect table relations cells := by
  rw [Expression.truthBy_map, Condition.truthBy_expression]
  refine Condition.truthBy_eq_truth filter.toCondition fun atom listed => ?_
  obtain ⟨column, found, _⟩ := writable atom listed
  exact Comparison.truthBy_test found

theorem Filter.storedTruth_of_isEmpty {filter : Filter} (noMembers : filter.isEmpty = true) :
    filter.storedTruth dialect table relations cells =
      (Truth.unit filter.connective).negateIf filter.negated := by
  obtain ⟨connective, negated, members⟩ := filter
  obtain rfl : members = [] := List.isEmpty_iff.mp noMembers
  simp [storedTruth, toCondition, Condition.truth, Condition.truths, Truth.joinAll]

end

namespace Dialect

variable {dialect : Dialect} {column : Column} {value bound : Value}

theorem writeMySql_ne_null (type : ColumnType) (present : value ≠ .null) :
    writeMySql type value ≠ .null := by
  cases value <;> simp only [writeMySql] <;> (repeat' split) <;>
    first | exact absurd rfl present | exact Value.noConfusion

theorem writeSqlite_ne_null (present : value ≠ .null)
    (written : writeSqlite column value = .ok bound) : bound ≠ .null := by
  cases value with
  | null => exact absurd rfl present
  | uuid uuid =>
    obtain ⟨type, _, chosen⟩ := ok_of_bind written
    obtain rfl := Except.ok.inj chosen
    split <;> exact Value.noConfusion
  | _ =>
    obtain rfl := Except.ok.inj written
    exact Value.noConfusion

/-- Only null is bound as null. -/
theorem write_ne_null (present : value ≠ .null) (written : dialect.write column value = .ok bound) :
    bound ≠ .null := by
  obtain ⟨_, _, written⟩ := ok_of_bind written
  cases dialect with
  | sqlite => exact writeSqlite_ne_null present written
  | mySql | mariaDb =>
    obtain ⟨type, _, written⟩ := ok_of_bind written
    exact Except.ok.inj written ▸ writeMySql_ne_null type present

end Dialect

/-- Keys in the form in which they are bound. -/
def Table.boundKeys (dialect : Dialect) (table : Table) (keys : Keys) : Keys :=
  ⟨List.zipWith (table.boundForm dialect) table.primaryKeys keys.values⟩

/-- An engine tells the values in the key columns of a row from others as they are. -/
def Relations.ExactOn (table : Table) (row : List Value) (relations : Relations) : Prop :=
  ∀ position ∈ table.primaryKeys, ∀ constant,
    relations.equal (row.getD position .null) constant =
      decide (row.getD position .null = constant)

/-- Two ways to give a value to each position are the same if they are at each position. -/
theorem map_eq_zipWith_iff {positions : List Nat} {values : List Value}
    (length : values.length = positions.length) (left : Nat → Value) (right : Nat → Value → Value) :
    positions.map left = List.zipWith right positions values ↔
      ∀ pair ∈ positions.zip values, left pair.1 = right pair.1 pair.2 := by
  induction positions generalizing values with
  | nil => simp
  | cons position rest inductionHypothesis =>
    cases values with
    | nil => cases length
    | cons value others => simp [inductionHypothesis (Nat.succ.inj length)]

namespace Filter

variable {dialect : Dialect} {table : Table} {relations : Relations} {cells : String → Value}

theorem writable_of_ofKeys {keys : List Keys}
    (writable : (ofKeys table keys).Writable dialect table) {key : Keys} (isKey : key ∈ keys) {pair : Nat × Value}
    (isPair : pair ∈ table.primaryKeys.zip key.values) :
    ({ column := pair.1, operator := .equal, operands := [pair.2] } : Comparison).Writable
      dialect table := by
  refine writable _ ?_
  show _ ∈ Condition.comparisonsOfAll _
  rw [Condition.comparisonsOfAll_eq_flatMap]
  refine List.mem_flatMap.mpr ⟨_, List.mem_map_of_mem isKey, ?_⟩
  show _ ∈ Condition.comparisonsOfAll _
  rw [Condition.comparisonsOfAll_eq_flatMap]
  exact List.mem_flatMap.mpr ⟨_, List.mem_map_of_mem isPair, List.mem_singleton_self _⟩

/-- Equalities hold on the stored rows that have the bound forms of their values. -/
theorem joinAll_equalities {positions : List Nat} {values : List Value}
    (whole : values.length = positions.length) (present : ∀ value ∈ values, value ≠ .null)
    (writable : ∀ pair ∈ positions.zip values,
      ({ column := pair.1, operator := .equal, operands := [pair.2] } : Comparison).Writable
        dialect table)
    (exact : ∀ position ∈ positions, ∀ constant,
      relations.equal ((table.rowOf cells).getD position .null) constant =
        decide ((table.rowOf cells).getD position .null = constant)) :
    Truth.joinAll .and (Condition.truths
        (fun comparison => (comparison.bound dialect table).truth relations (table.rowOf cells))
        (equalities positions values)) = .holds ↔
      positions.map (fun position => (table.rowOf cells).getD position .null) =
        List.zipWith (table.boundForm dialect) positions values := by
  rw [map_eq_zipWith_iff whole, Condition.truths_eq_map, equalities, List.map_map,
    Truth.joinAll_and_eq_holds, List.forall_mem_map]
  refine forall₂_congr fun pair isPair => ?_
  obtain ⟨position, value⟩ := pair
  obtain ⟨isPosition, isValue⟩ := List.of_mem_zip isPair
  obtain ⟨column, found, written⟩ := writable _ isPair
  have bound := Table.write_eq_boundForm found (written value (List.mem_singleton_self _))
  exact Truth.equal_eq_holds_iff (Dialect.write_ne_null (present value isValue) bound)
    (exact position isPosition _)

/-- A filter of one value holds on the stored rows that have its bound form. -/
theorem storedTruth_ofValue {position : Nat} {value : Value} (notNull : value ≠ .null)
    (writable : (ofValues [position] [value]).Writable dialect table)
    (exact : ∀ constant, relations.equal ((table.rowOf cells).getD position .null) constant =
      decide ((table.rowOf cells).getD position .null = constant)) :
    (ofValues [position] [value]).storedTruth dialect table relations cells = .holds ↔
      (table.rowOf cells).getD position .null = table.boundForm dialect position value := by
  rw [storedTruth, toCondition, ofValues, Condition.truth, Truth.negateIf_false_eq, id,
    joinAll_equalities rfl (by simpa using notNull) ?_ (by simpa using exact)]
  · simp
  · intro pair isPair
    obtain rfl := List.mem_singleton.mp (show pair ∈ [(position, value)] from isPair)
    exact writable _ (List.mem_singleton_self _)

/-- A filter of keys holds on the stored rows that have one of them. -/
theorem storedTruth_ofKeys {keys : List Keys}
    (whole : ∀ key ∈ keys, key.values.length = table.primaryKeys.length)
    (present : ∀ key ∈ keys, key.hasNull = false)
    (writable : (ofKeys table keys).Writable dialect table)
    (exact : relations.ExactOn table (table.rowOf cells)) :
    (ofKeys table keys).storedTruth dialect table relations cells = .holds ↔
      table.keysOf (table.rowOf cells) ∈ keys.map (table.boundKeys dialect) := by
  have each : ∀ key ∈ keys, Condition.truth
      (fun comparison => (comparison.bound dialect table).truth relations (table.rowOf cells))
      (.group .and false (equalities table.primaryKeys key.values)) = .holds ↔
        table.boundKeys dialect key = table.keysOf (table.rowOf cells) := by
    intro key isKey
    have notNull : ∀ value ∈ key.values, value ≠ .null := fun value isValue isNull =>
      List.any_eq_false.mp (present key isKey) value isValue ((Value.isNull_iff value).mpr isNull)
    rw [Condition.truth, Truth.negateIf_false_eq, id, eq_comm (a := table.boundKeys dialect key),
      joinAll_equalities (whole key isKey) notNull (fun pair => writable_of_ofKeys writable isKey) exact,
      Table.keysOf, Table.boundKeys, Keys.mk.injEq]
  rw [storedTruth, toCondition, ofKeys, Condition.truth, Truth.negateIf_false_eq, id,
    Condition.truths_eq_map, List.map_map, Truth.joinAll_or_eq_holds, List.mem_map, List.mem_map]
  exact exists_congr fun key => and_congr_right fun isKey => each key isKey

end Filter

namespace Query

variable {dialect : Dialect} {table : Table} {projection : Projection} {filter : Filter}

/-- A query whose filter has members selects the rows on which the filter holds. -/
theorem selects_filter (writable : filter.Writable dialect table) (columns : Option (List String))
    (relations : Relations) (cells : String → Value) :
    ReadQuery.Selects relations cells
        { columns, table := table.name
          condition := some (filter.toCondition.expression.map (Comparison.test dialect table)) } ↔
      filter.storedTruth dialect table relations cells = .holds := by
  rw [← Filter.truthBy_expression writable]
  simp [ReadQuery.Selects]

/-- A query without a condition selects every row. -/
theorem selects_all (columns : Option (List String)) (name : String) (relations : Relations)
    (cells : String → Value) :
    ReadQuery.Selects relations cells { columns, table := name, condition := none } :=
  fun _ isCondition => by cases isCondition

/-- The statement of a query with a filter is read back as one that selects exactly the rows on
which the filter holds, if and only if a filter without members holds on all rows. That
of a query by keys selects exactly the rows that have one of the keys, if and only if there
is one. -/
theorem selects_exact_iff (dialect : Dialect) (table : Table) (projection : Projection)
    (keyed : projection = .keys → table.hasPrimaryKey = true) (filter : Filter)
    (writable : filter.Writable dialect table) (keys : List Keys)
    (whole : ∀ key ∈ keys, key.values.length = table.primaryKeys.length)
    (present : ∀ key ∈ keys, key.hasNull = false)
    (writableKeys : (Filter.ofKeys table keys).Writable dialect table) :
    (∃ read, ReadsAs dialect { table, projection, filter := some filter } read ∧
      read.columns = projection.columns? table ∧ read.table = table.name ∧
      ((∀ relations cells, read.Selects relations cells ↔
          filter.storedTruth dialect table relations cells = .holds) ↔
        (filter.isEmpty = true →
          (Truth.unit filter.connective).negateIf filter.negated = .holds))) ∧
    ∃ read, ReadsAs dialect (byKeys table keys) read ∧
      read.columns = some (table.columns.map (·.name)) ∧ read.table = table.name ∧
      ((∀ relations cells, relations.ExactOn table (table.rowOf cells) →
          (read.Selects relations cells ↔
            table.keysOf (table.rowOf cells) ∈ keys.map (table.boundKeys dialect))) ↔
        keys ≠ []) := by
  constructor
  · cases noMembers : filter.isEmpty with
    | false =>
      refine ⟨_, readsAs_filter keyed noMembers writable, rfl, rfl, ?_⟩
      exact iff_of_true (selects_filter writable _) fun impossible => by cases impossible
    | true =>
      refine ⟨_, readsAs_empty keyed noMembers, rfl, rfl, ?_⟩
      constructor
      · intro exact _
        have always := (exact .plain fun _ => .null).mp (selects_all _ _ _ _)
        rwa [Filter.storedTruth_of_isEmpty noMembers] at always
      · intro holds relations cells
        rw [Filter.storedTruth_of_isEmpty noMembers]
        exact iff_of_true (selects_all _ _ _ _) (holds rfl)
  · have allColumns : Projection.all = .keys → table.hasPrimaryKey = true := fun impossible => by
      cases impossible
    cases keys with
    | nil =>
      refine ⟨_, readsAs_empty allColumns rfl, rfl, rfl, iff_of_false (fun exact => ?_) (· rfl)⟩
      have found := (exact .plain (fun _ => .null) fun _ _ _ => rfl).mp (selects_all _ _ _ _)
      cases found
    | cons first others =>
      refine ⟨_, readsAs_filter allColumns rfl writableKeys, rfl, rfl, ?_⟩
      refine iff_of_true (fun relations cells exact => ?_) (List.cons_ne_nil _ _)
      exact (selects_filter writableKeys _ relations cells).trans
        (Filter.storedTruth_ofKeys whole present writableKeys exact)

/-- The query of items by no keys has no condition and selects an item. -/
theorem byKeys_nil_selects :
    (byKeys sortedItems []).statement .sqlite =
        .ok { text := "SELECT \"id\", \"grp\" FROM \"items\"" } ∧
      ∃ read, ReadsAs .sqlite (byKeys sortedItems []) read ∧
        read.Selects .plain (fun _ => .int 1) ∧
        sortedItems.keysOf (sortedItems.rowOf fun _ => .int 1) ∉
          ([] : List Keys).map (sortedItems.boundKeys .sqlite) :=
  ⟨rfl, _, ⟨_, rfl, rfl⟩, selects_all _ _ _ _, List.not_mem_nil⟩

/-- The equivalences for a filter of nested groups and for two keys. -/
theorem selects_exact_iff_twoKeys :
    Filter.nested.Writable .sqlite sortedItems ∧
      (∃ read,
        ReadsAs .sqlite { table := sortedItems, projection := .keys, filter := some .nested } read ∧
          ∀ relations cells, read.Selects relations cells ↔
            Filter.nested.storedTruth .sqlite sortedItems relations cells = .holds) ∧
      (Filter.ofKeys sortedItems [⟨[.int 1]⟩, ⟨[.int 4]⟩]).Writable .sqlite sortedItems ∧
      ∃ read, ReadsAs .sqlite (byKeys sortedItems [⟨[.int 1]⟩, ⟨[.int 4]⟩]) read ∧
        read.Selects .plain (fun _ => .int 4) ∧ ¬ read.Selects .plain (fun _ => .int 2) := by
  have writable : Filter.nested.Writable .sqlite sortedItems := by decide
  have writableKeys :
      (Filter.ofKeys sortedItems [⟨[.int 1]⟩, ⟨[.int 4]⟩]).Writable .sqlite sortedItems := by
    decide
  obtain ⟨⟨read, isRead, _, _, exact⟩, readKeys, isReadKeys, _, _, exactKeys⟩ :=
    selects_exact_iff .sqlite sortedItems .keys (fun _ => rfl) .nested writable
      [⟨[.int 1]⟩, ⟨[.int 4]⟩] (by decide) (by decide) writableKeys
  have selects := exactKeys.mpr (List.cons_ne_nil _ _) .plain
  refine ⟨writable, ⟨read, isRead, exact.mpr fun empty => by cases empty⟩, writableKeys, readKeys,
    isReadKeys, ?_, ?_⟩
  · exact (selects (fun _ => .int 4) fun _ _ _ => rfl).mpr (by decide)
  · intro selected
    exact absurd ((selects (fun _ => .int 2) fun _ _ _ => rfl).mp selected) (by decide)

end Query

end RelationalAccess
