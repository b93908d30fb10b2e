import RelationalAccess.Proofs.Query.Lowering

/-!
Membership of a column's value in a list. A null in the list equals nothing and
differs from nothing, so that no value is known to be outside a list that has one.
-/

namespace RelationalAccess

namespace Truth

variable {relations : Relations} {value : Value} {constants : List Value}

theorem equal_of_present (present : value ≠ .null) {constant : Value} (notNull : constant ≠ .null) :
    equal relations value constant = .ofBool (relations.equal value constant) := by
  have bothThere : ¬ (value.isNull || constant.isNull) = true := by
    simp [present, notNull]
  rw [equal, relate, if_neg bothThere]

theorem equal_null : equal relations value .null = .unknown := by
  rw [equal, relate, if_pos (by simp)]

theorem equal_eq_holds_iff {constant : Value} (notNull : constant ≠ .null)
    (exact : relations.equal value constant = decide (value = constant)) :
    equal relations value constant = .holds ↔ value = constant := by
  by_cases isNull : value = .null
  · simp [isNull, equal, relate, notNull.symm]
  · rw [equal_of_present isNull notNull, exact, ofBool_eq_holds, decide_eq_true_iff]

variable (present : value ≠ .null)
  (faithful : ∀ constant ∈ constants, constant ≠ .null →
    relations.equal value constant = decide (value = constant))

include present faithful

private theorem equal_listed {constant : Value} (listed : constant ∈ constants) :
    equal relations value constant =
      if constant = .null then .unknown else .ofBool (decide (value = constant)) := by
  split
  · next isNull => rw [isNull, equal_null]
  · next notNull => rw [equal_of_present present notNull, faithful constant listed notNull]

/-- A value is known to be in a list if it is an element of it. -/
theorem isIn_eq_holds_iff : isIn relations value constants = .holds ↔ value ∈ constants := by
  rw [isIn, joinAll_or_eq_holds, List.mem_map]
  constructor
  · rintro ⟨constant, listed, known⟩
    rw [equal_listed present faithful listed] at known
    split at known
    · cases known
    · rw [of_decide_eq_true (ofBool_eq_holds.mp known)]
      exact listed
  · intro listed
    refine ⟨value, listed, ?_⟩
    rw [equal_listed present faithful listed, if_neg present]
    simp

/-- A value is known to be outside a list if it is not an element of it, and no null is. -/
theorem isIn_eq_fails_iff :
    isIn relations value constants = .fails ↔ .null ∉ constants ∧ value ∉ constants := by
  rw [isIn, joinAll_or_eq_fails, List.forall_mem_map]
  constructor
  · intro known
    constructor
    · intro listed
      have unknown := known .null listed
      rw [equal_null] at unknown
      cases unknown
    · intro listed
      have differs := known value listed
      rw [equal_listed present faithful listed, if_neg present] at differs
      simp at differs
  · rintro ⟨noNull, absent⟩ constant listed
    have notNull : constant ≠ .null := fun isNull => noNull (isNull ▸ listed)
    have differs : value ≠ constant := fun same => absent (same ▸ listed)
    rw [equal_listed present faithful listed, if_neg notNull]
    simpa using differs

end Truth

namespace Predicate

/-- The predicate that a field's value is in a list. -/
def isListed (name : String) (values : List Value) : Predicate :=
  call (list values) "contains" [field name]

theorem truth?_isListed (relations : Relations) (row : List Value) {table : Table} {name : String}
    {position : Nat} (resolved : table.columnIndex? name = some position) (values : List Value) :
    (isListed name values).truth? relations row table =
      some (.isIn relations (row.getD position .null) values) := by
  have truthIs : (isListed name values).truth? relations row table =
      membershipTruth? relations row values ((field name).operand? table) := rfl
  rw [truthIs, operand?, resolved, Option.map_some, membershipTruth?]
  cases values with
  | nil => rfl
  | cons first others => rfl

theorem truth?_not_isListed (relations : Relations) (row : List Value) {table : Table} {name : String}
    {position : Nat} (resolved : table.columnIndex? name = some position) (values : List Value) :
    (not (isListed name values)).truth? relations row table =
      some (Truth.isIn relations (row.getD position .null) values).not := by
  have truthIs : (not (isListed name values)).truth? relations row table =
      ((isListed name values).truth? relations row table).map Truth.not := rfl
  rw [truthIs, truth?_isListed relations row resolved, Option.map_some]

/-- The filter of a membership finds exactly the rows whose value is in the list. The filter
of its negation finds exactly those whose value is not in the list, if and only if
no null is in the list or the value is. -/
theorem membership_exact_iff (relations : Relations) (table : Table) {name : String} {position : Nat}
    (resolved : table.columnIndex? name = some position) (values row : List Value)
    (present : row.getD position .null ≠ .null)
    (faithful : ∀ constant ∈ values, constant ≠ .null →
      relations.equal (row.getD position .null) constant =
        decide (row.getD position .null = constant)) :
    ∃ inside outside, (isListed name values).lower table = .ok inside ∧
      (not (isListed name values)).lower table = .ok outside ∧
      (inside.truth relations row = .holds ↔ row.getD position .null ∈ values) ∧
      ((outside.truth relations row = .holds ↔ row.getD position .null ∉ values) ↔
        (.null ∈ values → row.getD position .null ∈ values)) := by
  obtain ⟨inside, lowered, insideSays⟩ :=
    lowered_of_truth? (truth?_isListed relations row resolved values)
  obtain ⟨outside, loweredNot, outsideSays⟩ :=
    lowered_of_truth? (truth?_not_isListed relations row resolved values)
  refine ⟨inside, outside, lowered, loweredNot, ?_, ?_⟩
  · rw [insideSays]
    exact Truth.isIn_eq_holds_iff present faithful
  · rw [outsideSays, Truth.not_eq_holds, Truth.isIn_eq_fails_iff present faithful]
    grind

end Predicate

/-- A table of items, each of one group that may be missing. -/
def sortedItems : Table where
  id := 0
  name := "items"
  model := "items"
  columns :=
    [{ table := 0, position := 0, name := "id", declared := [], nullable := false
       autoIncrement := false, primaryKey := true, property := "id", host := .int64
       defaultValue := none },
     { table := 0, position := 1, name := "grp", declared := [], nullable := true
       autoIncrement := false, primaryKey := false, property := "grp", host := .int64
       defaultValue := none }]
  primaryKeys := [0]
  indices := []
  useCache := true

namespace Predicate

/-- An item of group 2 is not found outside the list of 1 and null. -/
theorem nullListed_not_excluded :
    Value.int 2 ∉ [Value.int 1, .null] ∧
      ∃ outside, (not (isListed "grp" [.int 1, .null])).lower sortedItems = .ok outside ∧
        outside.truth .plain [.int 5, .int 2] ≠ .holds :=
  ⟨by decide, _, rfl, by decide⟩

/-- The equivalence at the list of 1 and null, for an item of group 1 and for one of group 2. -/
theorem membership_exact_iff_nullListed :
    sortedItems.columnIndex? "grp" = some 1 ∧
      (∃ outside, (not (isListed "grp" [.int 1, .null])).lower sortedItems = .ok outside ∧
        (outside.truth .plain [.int 4, .int 1] = .holds ↔ Value.int 1 ∉ [Value.int 1, .null])) ∧
      (∃ outside, (not (isListed "grp" [.int 1, .null])).lower sortedItems = .ok outside ∧
        ¬ (outside.truth .plain [.int 5, .int 2] = .holds ↔ Value.int 2 ∉ [Value.int 1, .null])) := by
  have resolved : sortedItems.columnIndex? "grp" = some 1 := by decide
  refine ⟨resolved, ?_, ?_⟩
  · obtain ⟨_, outside, _, lowered, _, exact⟩ := membership_exact_iff .plain sortedItems resolved
      [.int 1, .null] [.int 4, .int 1] (by decide) (fun _ _ _ => rfl)
    exact ⟨outside, lowered, exact.mpr (by decide)⟩
  · obtain ⟨_, outside, _, lowered, _, exact⟩ := membership_exact_iff .plain sortedItems resolved
      [.int 1, .null] [.int 5, .int 2] (by decide) (fun _ _ _ => rfl)
    exact ⟨outside, lowered, fun excluded => absurd (exact.mp excluded) (by decide)⟩

end Predicate

end RelationalAccess
