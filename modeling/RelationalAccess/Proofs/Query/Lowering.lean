import RelationalAccess.Proofs.Outcome
import RelationalAccess.Proofs.Query.Meaning

/-!
Lowering keeps what a predicate says. NOTs are carried down and groups are
joined, so the statement that goes through by induction is about a predicate
under any pending NOT and about the conditions it adds to any enclosing group.
-/

namespace RelationalAccess

theorem toOption_bind (action : Except ε α) (next : α → Except ε β) :
    (action >>= next).toOption = action.toOption.bind fun result => (next result).toOption := by
  cases action <;> rfl

theorem Table.columnIndex?_found {table : Table} {name : String} {position : Nat}
    (found : table.columnIndex? name = some position) :
    ∃ column, table.columns[position]? = some column := by
  have inside : position < table.columns.length := by
    rw [columnIndex?, Option.orElse_eq_orElse, Option.orElse_eq_or] at found
    rcases Option.or_eq_some_iff.mp found with byName | ⟨_, byProperty⟩
    · exact (List.findIdx?_eq_some_iff_findIdx_eq.mp byName).1
    · exact (List.findIdx?_eq_some_iff_findIdx_eq.mp byProperty).1
  exact ⟨_, List.getElem?_eq_getElem inside⟩

theorem Predicate.elements?_eq_listed? (predicate : Predicate) :
    predicate.elements? = predicate.listed? := by
  fun_induction Predicate.elements? predicate with
  | case1 values => rfl
  | case2 inner inductionHypothesis => exact inductionHypothesis
  | case3 other notList notSpan => cases other <;> first | rfl | simp_all

theorem Pattern.literally_eq_escapePattern (text : List Char) :
    literally text = Lowering.escapePattern text := by
  induction text with
  | nil => rfl
  | cons char rest inductionHypothesis =>
    have escaped : Lowering.escapePattern (char :: rest) =
        (if char = '\\' ∨ char = '%' ∨ char = '_' then ['\\', char] else [char]) ++
          Lowering.escapePattern rest := rfl
    rw [literally, inductionHypothesis, escaped]
    simp only [List.mem_cons, List.not_mem_nil, or_false]
    split <;> rfl

theorem Pattern.asking_eq_pattern (kind : Lowering.Match) (text : String) :
    asking kind text = Lowering.pattern kind text := by
  apply String.toList_inj.mp
  cases kind <;> simp [asking, Lowering.pattern, literally_eq_escapePattern]

namespace FlagTest

/-- A test for equality or for inequality is the same from either side. -/
theorem ofComparison?_flipped (table : Table) (position : Nat) (comparator : Comparator)
    (value : Value) :
    ofComparison? table position comparator.flipped value =
      ofComparison? table position comparator value := by
  cases comparator <;> rfl

end FlagTest

/-- A constant on the left is compared as the lowering compares it from the right. -/
theorem Predicate.columnTruth?_flipped (relations : Relations) (row : List Value) (position : Nat)
    (comparator : Comparator) (constant : Value) :
    columnTruth? relations row position comparator.flipped constant =
      constantFirstTruth? relations row constant comparator position := by
  cases null : constant.isNull <;> cases comparator <;>
    simp [columnTruth?, constantFirstTruth?, Comparator.flipped, null]

namespace Lowering

theorem toOption_operand (table : Table) (predicate : Predicate) :
    (operand table predicate).toOption = predicate.operand? table := by
  fun_induction Predicate.operand? table predicate with
  | case1 name =>
    simp only [operand, column]
    cases table.columnIndex? name <;> rfl
  | case2 inner inductionHypothesis => exact inductionHypothesis
  | case3 value => rfl
  | case4 other notField notUnwrap notConstant =>
    cases other <;> first | rfl | simp_all

theorem operand_eq_ok_iff {table : Table} {predicate : Predicate} {found : Operand} :
    operand table predicate = .ok found ↔ predicate.operand? table = some found := by
  rw [← toOption_operand, toOption_eq_some_iff]

theorem toOption_columnOf (table : Table) (predicate : Predicate) :
    (columnOf table predicate).toOption = predicate.fieldIndex? table := by
  simp only [columnOf, toOption_bind, toOption_operand, Predicate.fieldIndex?]
  cases predicate.operand? table with
  | none => rfl
  | some operand => cases operand <;> rfl

theorem columnOf_eq_ok_iff {table : Table} {predicate : Predicate} {position : Nat} :
    columnOf table predicate = .ok position ↔ predicate.fieldIndex? table = some position := by
  rw [← toOption_columnOf, toOption_eq_some_iff]

end Lowering

theorem Predicate.operand?_found {table : Table} {predicate : Predicate} {position : Nat}
    (found : predicate.operand? table = some (.column position)) :
    ∃ column, table.columns[position]? = some column := by
  fun_induction operand? table predicate with
  | case1 name =>
    obtain ⟨index, indexed, same⟩ := Option.map_eq_some_iff.mp found
    cases same
    exact Table.columnIndex?_found indexed
  | case2 inner inductionHypothesis => exact inductionHypothesis found
  | case3 value => simp at found
  | case4 => simp at found

section

variable (relations : Relations) (row : List Value)

/-- What a condition says of a row. -/
def Condition.truthOn (condition : Condition) : Truth :=
  condition.truth (Comparison.truth relations row)

/-- What a test or else an ordinary truth value comes to under a NOT, where there is one. -/
def Predicate.signed (negated : Bool) (test : Option FlagTest) (truth : Option Truth) :
    Option Truth :=
  match test with
  | some test => some ((test.turnIf negated).truth relations row)
  | none => truth.map (Truth.negateIf negated)

namespace Lowering

theorem truthOn_booleanCondition (position : Nat) (column : Column) (equal flag : Bool) :
    (booleanCondition position column equal flag).truthOn relations row =
      if column.nullable then ({ column := position, equal, flag } : FlagTest).truth relations row
      else if equal then .equal relations (row.getD position .null) (.bool flag)
      else .notEqual relations (row.getD position .null) (.bool flag) := by
  have isEqual : (Condition.compare position .equal (.bool flag)).truthOn relations row =
      .equal relations (row.getD position .null) (.bool flag) := rfl
  have isNotEqual : (Condition.compare position .notEqual (.bool flag)).truthOn relations row =
      .notEqual relations (row.getD position .null) (.bool flag) := rfl
  have eitherWay : (Condition.group .or false [.compare position .isNull .null,
      .compare position .notEqual (.bool flag)]).truthOn relations row =
      (Truth.ofBool (row.getD position .null).isNull).or
        (.notEqual relations (row.getD position .null) (.bool flag)) :=
    Truth.joinAll_pair .or _ _
  cases equal with
  | true => simpa [booleanCondition, FlagTest.truth] using isEqual
  | false =>
    cases nullable : column.nullable with
    | false => simpa [booleanCondition, nullable] using isNotEqual
    | true => simpa [booleanCondition, nullable, FlagTest.truth, Truth.or_ofBool] using eitherWay

/-- A comparison with a constant that does not test a boolean column says what
the comparison of values says. -/
theorem truthOn_operator (position : Nat) (comparator : Comparator) (negated : Bool) (value : Value) :
    ((operator? comparator value.isNull).map fun operator =>
      Condition.truthOn relations row (.comparison
        { column := position, operator, operands := if value.isNull then [] else [value], negated })) =
      (Predicate.columnTruth? relations row position comparator value).map
        (Truth.negateIf negated) := by
  cases null : value.isNull <;> cases comparator <;>
    simp [operator?, Predicate.columnTruth?, null, Condition.truthOn, Condition.truth,
      Comparison.truth, Comparison.plainTruth]

/-- The condition that an ordinary comparison with a constant is lowered to. -/
def ordinary? (position : Nat) (comparator : Comparator) (negated : Bool) (value : Value) :
    Option Condition :=
  (operator? comparator value.isNull).map fun operator =>
    .comparison
      { column := position, operator, operands := if value.isNull then [] else [value], negated }

private theorem toOption_ordinary {table : Table} {position : Nat} {comparator : Comparator}
    {negated : Bool} {value : Value}
    (lowered : (compareColumn table position comparator negated value).toOption =
      ordinary? position comparator negated value)
    (untested : FlagTest.ofComparison? table position comparator value = none) :
    (compareColumn table position comparator negated value).toOption.map
        (Condition.truthOn relations row) =
      Predicate.signed relations row negated (FlagTest.ofComparison? table position comparator value)
        (Predicate.columnTruth? relations row position comparator value) := by
  rw [untested, Predicate.signed, lowered, ← truthOn_operator, ordinary?, Option.map_map]
  rfl

private theorem toOption_flag {table : Table} {position : Nat} {column : Column} (equal negated flag : Bool)
    (found : table.columns[position]? = some column) (boolean : column.host = .bool) :
    some ((booleanCondition position column (equal != negated) flag).truthOn relations row) =
      Predicate.signed relations row negated (FlagTest.ofColumn? table position equal flag)
        (some (if equal then .equal relations (row.getD position .null) (.bool flag)
          else .notEqual relations (row.getD position .null) (.bool flag))) := by
  rw [truthOn_booleanCondition]
  cases nullable : column.nullable with
  | true =>
    cases negated <;>
      simp [FlagTest.ofColumn?, found, boolean, nullable, Predicate.signed, FlagTest.turnIf,
        FlagTest.opposite]
  | false =>
    cases negated <;> cases equal <;>
      simp [FlagTest.ofColumn?, found, boolean, nullable, Predicate.signed, Truth.not_equal,
        Truth.not_notEqual]

theorem toOption_compareColumn {table : Table} {position : Nat} {column : Column}
    (comparator : Comparator) (negated : Bool) (value : Value)
    (found : table.columns[position]? = some column) :
    (compareColumn table position comparator negated value).toOption.map
        (Condition.truthOn relations row) =
      Predicate.signed relations row negated (FlagTest.ofComparison? table position comparator value)
        (Predicate.columnTruth? relations row position comparator value) := by
  by_cases boolean : column.host = .bool
  · cases value with
    | bool flag =>
      cases comparator with
      | eq =>
        have lowered : compareColumn table position .eq negated (.bool flag) =
            .ok (booleanCondition position column (true != negated) flag) := by
          simp [compareColumn, found, equality?, boolean]
        rw [lowered]
        exact toOption_flag relations row true negated flag found boolean
      | ne =>
        have lowered : compareColumn table position .ne negated (.bool flag) =
            .ok (booleanCondition position column (false != negated) flag) := by
          simp [compareColumn, found, equality?, boolean]
        rw [lowered]
        exact toOption_flag relations row false negated flag found boolean
      | _ => exact toOption_ordinary relations row (by rw [compareColumn, found]; rfl) rfl
    | null =>
      refine toOption_ordinary relations row ?_ (by cases comparator <;> rfl)
      rw [compareColumn, found]
      cases comparator <;> rfl
    | _ =>
      refine toOption_ordinary relations row ?_ (by cases comparator <;> rfl)
      rw [compareColumn, found]
      cases comparator <;> rfl
  · have untested : FlagTest.ofComparison? table position comparator value = none := by
      cases value <;> cases comparator <;>
        simp [FlagTest.ofComparison?, FlagTest.ofColumn?, found, boolean]
    refine toOption_ordinary relations row ?_ untested
    rw [compareColumn, found]
    simp only [decide_eq_false boolean]
    cases value <;> cases comparator <;> rfl

theorem toOption_compareValues (comparator : Comparator) (negated : Bool) (left right : Value) :
    (compareValues comparator negated left right).toOption.map (Condition.truthOn relations row) =
      (Predicate.constantTruth? comparator left right).map (Truth.negateIf negated) := by
  have literal (holds : Bool) : (Condition.literal holds).truthOn relations row = .ofBool holds := rfl
  cases comparator <;> cases negated <;>
    simp [compareValues, equality?, Predicate.constantTruth?, Except.toOption, literal]

theorem toOption_comparison (table : Table) (comparator : Comparator) (negated : Bool)
    (left right : Predicate) :
    (comparison table comparator negated left right).toOption.map (Condition.truthOn relations row) =
      Predicate.signed relations row negated
        (FlagTest.ofOperands? table comparator (left.operand? table) (right.operand? table))
        (Predicate.comparisonTruth? relations row comparator
          (left.operand? table) (right.operand? table)) := by
  simp only [comparison, toOption_bind, toOption_operand]
  cases onLeft : left.operand? table with
  | none => rfl
  | some leftOperand =>
    cases onRight : right.operand? table with
    | none => cases leftOperand <;> rfl
    | some rightOperand =>
      cases leftOperand with
      | column position =>
        cases rightOperand with
        | column other => rfl
        | value value =>
          obtain ⟨column, found⟩ := Predicate.operand?_found onLeft
          exact toOption_compareColumn relations row comparator negated value found
      | value value =>
        cases rightOperand with
        | column position =>
          obtain ⟨column, found⟩ := Predicate.operand?_found onRight
          have lowered := toOption_compareColumn relations row comparator.flipped negated value found
          rwa [FlagTest.ofComparison?_flipped, Predicate.columnTruth?_flipped] at lowered
        | value other => exact toOption_compareValues relations row comparator negated value other

theorem toOption_membership (table : Table) (negated : Bool) (values : List Value)
    (item : Predicate) :
    (membership table negated values item).toOption.map (Condition.truthOn relations row) =
      (Predicate.membershipTruth? relations row values (item.operand? table)).map (Truth.negateIf negated) := by
  simp only [membership, toOption_bind, toOption_operand]
  cases item.operand? table with
  | none => rfl
  | some operand =>
    cases operand with
    | value value =>
      simp [Predicate.membershipTruth?, Except.toOption, pure, Except.pure, Condition.truthOn,
        Condition.truth, Truth.negateIf_ofBool]
    | column position =>
      cases values with
      | nil => cases negated <;> rfl
      | cons first others => cases negated <;> rfl

theorem toOption_patternMatch (table : Table) (negated : Bool) (kind : Match)
    (target argument : Predicate) :
    (patternMatch table negated kind target argument).toOption.map
        (Condition.truthOn relations row) =
      (Predicate.matchTruth? relations row kind (target.fieldIndex? table)
        (argument.operand? table)).map (Truth.negateIf negated) := by
  simp only [patternMatch, toOption_bind, toOption_columnOf, toOption_operand,
    ← Pattern.asking_eq_pattern]
  cases target.fieldIndex? table with
  | none =>
    cases argument.operand? table with
    | none => rfl
    | some operand =>
      cases operand with
      | column position => rfl
      | value value => cases value <;> rfl
  | some position =>
    cases argument.operand? table with
    | none => rfl
    | some operand =>
      cases operand with
      | column other => rfl
      | value value => cases value <;> rfl

theorem toOption_call (table : Table) (negated : Bool) (target : Predicate) (method : String)
    (arguments : List Predicate) :
    (call table negated target method arguments).toOption.map (Condition.truthOn relations row) =
      (Predicate.callTruth? relations row table target method arguments).map
        (Truth.negateIf negated) := by
  match arguments with
  | [] => rfl
  | [argument] =>
    simp only [call, Predicate.callTruth?, ← Predicate.elements?_eq_listed?]
    split
    · cases target.elements? with
      | none => exact toOption_patternMatch relations row table negated .anywhere target argument
      | some values => exact toOption_membership relations row table negated values argument
    · split
      · exact toOption_patternMatch relations row table negated .atStart target argument
      · split
        · exact toOption_patternMatch relations row table negated .atEnd target argument
        · rfl
  | _ :: _ :: _ => rfl

theorem toOption_bareField (table : Table) (negated : Bool) (predicate : Predicate) :
    (bareField table negated predicate).toOption.map (Condition.truthOn relations row) =
      Predicate.signed relations row negated
        ((predicate.fieldIndex? table).bind (FlagTest.ofComparison? table · .eq (.bool true)))
        ((predicate.fieldIndex? table).bind (Predicate.fieldTruth? relations row table)) := by
  simp only [bareField, toOption_bind, toOption_columnOf]
  cases indexed : predicate.fieldIndex? table with
  | none => rfl
  | some position =>
    cases found : table.columns[position]? with
    | none => simp [Predicate.signed, FlagTest.ofComparison?, FlagTest.ofColumn?,
        Predicate.fieldTruth?, found, Except.toOption]
    | some column =>
      by_cases boolean : column.host = .bool
      · simpa [boolean, found, Predicate.fieldTruth?] using
          toOption_compareColumn relations row .eq negated (.bool true) found
      · simp [Predicate.signed, FlagTest.ofComparison?, FlagTest.ofColumn?,
          Predicate.fieldTruth?, found, boolean, Except.toOption]

theorem toOption_leaf (table : Table) (negated : Bool) (predicate : Predicate)
    (notNot : ∀ inner, predicate ≠ .not inner)
    (notJoin : ∀ connective left right, predicate ≠ .join connective left right) :
    (leaf table negated predicate).toOption.map (Condition.truthOn relations row) =
      Predicate.signed relations row negated (predicate.flagTest? table)
        (predicate.leafTruth? relations row table) := by
  cases predicate with
  | field name => exact toOption_bareField relations row table negated (.field name)
  | unwrap inner => exact toOption_bareField relations row table negated (.unwrap inner)
  | compare comparator left right =>
    exact toOption_comparison relations row table comparator negated left right
  | call target method arguments =>
    exact toOption_call relations row table negated target method arguments
  | constant value =>
    cases value with
    | bool flag => cases negated <;> cases flag <;> rfl
    | _ => rfl
  | not inner => exact absurd rfl (notNot inner)
  | join connective left right => exact absurd rfl (notJoin connective left right)
  | _ => rfl

end Lowering

namespace Predicate

/-- What a predicate says under a pending NOT, where there is one. -/
def truthUnder (table : Table) (negated : Bool) (predicate : Predicate) : Option Truth :=
  if negated then (not predicate).truth? relations row table
  else predicate.truth? relations row table

theorem truth?_of_flagTest? {table : Table} {predicate : Predicate} {test : FlagTest}
    (found : predicate.flagTest? table = some test) :
    predicate.truth? relations row table = some (test.truth relations row) := by
  cases predicate with
  | join connective left right => simp [flagTest?] at found
  | _ => simp only [truth?, found]

theorem truth?_not_not (table : Table) (predicate : Predicate) :
    (not (not predicate)).truth? relations row table = predicate.truth? relations row table := by
  cases found : predicate.flagTest? table with
  | some test =>
    have turned : (not (not predicate)).flagTest? table = some test := by simp [flagTest?, found]
    rw [truth?_of_flagTest? relations row found, truth?_of_flagTest? relations row turned]
  | none =>
    have once : (not predicate).flagTest? table = none := by simp [flagTest?, found]
    have twice : (not (not predicate)).flagTest? table = none := by simp [flagTest?, found]
    simp only [truth?, once, twice, Option.map_map]
    cases predicate.truth? relations row table <;> simp

theorem truthUnder_not (table : Table) (negated : Bool) (predicate : Predicate) :
    (not predicate).truthUnder relations row table negated =
      predicate.truthUnder relations row table (!negated) := by
  cases negated with
  | false => rfl
  | true => exact truth?_not_not relations row table predicate

theorem truthUnder_join (table : Table) (negated : Bool) (connective : Connective)
    (left right : Predicate) :
    (join connective left right).truthUnder relations row table negated =
      ((join connective left right).truth? relations row table).map (Truth.negateIf negated) := by
  cases negated with
  | false => simp [truthUnder]
  | true => rfl

theorem truth?_join (table : Table) (connective : Connective) (left right : Predicate) :
    (join connective left right).truth? relations row table =
      (left.truth? relations row table).bind fun first =>
        (right.truth? relations row table).map (Truth.join connective first) := by
  rw [truth?]
  cases left.truth? relations row table with
  | none => rfl
  | some first => cases right.truth? relations row table <;> rfl

theorem truthUnder_leaf (table : Table) (negated : Bool) (predicate : Predicate)
    (notNot : ∀ inner, predicate ≠ .not inner)
    (notJoin : ∀ connective left right, predicate ≠ .join connective left right) :
    predicate.truthUnder relations row table negated =
      signed relations row negated (predicate.flagTest? table) (predicate.leafTruth? relations row table) := by
  have plain : predicate.truth? relations row table =
      match predicate.flagTest? table with
      | some test => some (test.truth relations row)
      | none => predicate.leafTruth? relations row table := by
    cases predicate with
    | not inner => exact absurd rfl (notNot inner)
    | join connective left right => exact absurd rfl (notJoin connective left right)
    | _ => rfl
  cases found : predicate.flagTest? table with
  | some test =>
    have turned : (not predicate).flagTest? table = some test.opposite := by simp [flagTest?, found]
    cases negated with
    | false => simp [truthUnder, signed, plain, found, FlagTest.turnIf]
    | true =>
      simp [truthUnder, signed, truth?_of_flagTest? relations row turned, FlagTest.turnIf]
  | none =>
    have turned : (not predicate).flagTest? table = none := by simp [flagTest?, found]
    cases negated with
    | false => simp [truthUnder, signed, plain, found]
    | true => simp [truthUnder, signed, truth?, turned, plain, found]

end Predicate

namespace Lowering

/-- What the conditions of a group say together, if there are any to be had. -/
private def spoken (connective : Connective) (lowered : Except Error (List Condition)) :
    Option Truth :=
  lowered.toOption.map fun conditions =>
    Truth.joinAll connective (Condition.truths (Comparison.truth relations row) conditions)

private theorem spoken_append (connective : Connective)
    (first second : Except Error (List Condition)) :
    spoken relations row connective (do return (← first) ++ (← second)) =
      (spoken relations row connective first).bind fun left =>
        (spoken relations row connective second).map (Truth.join connective left) := by
  cases first with
  | error refusal => rfl
  | ok before =>
    cases second with
    | error refusal => rfl
    | ok after =>
      simp only [spoken, bind, Except.bind, pure, Except.pure, Except.toOption, Option.map_some,
        Option.bind_some, Condition.truths_append, Truth.joinAll_append]

private theorem spoken_group (enclosing connective : Connective) (negated : Bool)
    (members : Except Error (List Condition)) :
    spoken relations row enclosing (do return [.group connective negated (← members)]) =
      (spoken relations row connective members).map (Truth.negateIf negated) := by
  cases members with
  | error refusal => rfl
  | ok conditions =>
    simp only [spoken, bind, Except.bind, pure, Except.pure, Except.toOption, Option.map_some,
      Condition.truths_singleton, Truth.joinAll_singleton, Condition.truth]

private theorem spoken_leaf (enclosing : Connective) (lowered : Except Error Condition) :
    spoken relations row enclosing (do return [← lowered]) =
      lowered.toOption.map (Condition.truthOn relations row) := by
  cases lowered with
  | error refusal => rfl
  | ok condition =>
    simp only [spoken, bind, Except.bind, pure, Except.pure, Except.toOption, Option.map_some,
      Condition.truths_singleton, Truth.joinAll_singleton, Condition.truthOn]

/-- What the conditions that a predicate adds to a group say together. The NOTs
above the predicate and the group around it are any, as both change on the way down. -/
theorem spoken_lower (table : Table) (enclosing : Connective) (negated : Bool)
    (predicate : Predicate) :
    spoken relations row enclosing (lower table enclosing negated predicate) =
      predicate.truthUnder relations row table negated := by
  fun_induction lower table enclosing negated predicate with
  | case1 enclosing negated inner inductionHypothesis =>
    rw [inductionHypothesis, Predicate.truthUnder_not]
  | case2 enclosing negated connective left right joins onLeft onRight =>
    obtain ⟨plain, same⟩ := joins
    subst plain same
    rw [spoken_append, onLeft, onRight, Predicate.truthUnder_join, Predicate.truth?_join]
    simp [Predicate.truthUnder]
  | case3 enclosing negated connective left right apart onLeft onRight =>
    have gathered := spoken_append relations row connective
      (lower table connective false left) (lower table connective false right)
    have grouped := spoken_group relations row enclosing connective negated (do
      return (← lower table connective false left) ++ (← lower table connective false right))
    rw [gathered, onLeft, onRight] at grouped
    rw [Predicate.truthUnder_join, Predicate.truth?_join]
    simpa [Predicate.truthUnder] using grouped
  | case4 enclosing negated predicate notNot notJoin =>
    rw [spoken_leaf, toOption_leaf relations row table negated predicate notNot notJoin,
      Predicate.truthUnder_leaf relations row table negated predicate notNot notJoin]

end Lowering

end

namespace Predicate

/-- What the filter of a predicate says of a row is what the predicate says. -/
theorem truth?_of_lower (relations : Relations) (row : List Value) {table : Table}
    {predicate : Predicate} {filter : Filter} (lowered : predicate.lower table = .ok filter) :
    predicate.truth? relations row table = some (filter.truth relations row) := by
  have inside := Lowering.spoken_lower relations row table .and false predicate
  rw [Predicate.lower] at lowered
  cases members : Lowering.lower table .and false predicate with
  | error refusal =>
    rw [members] at lowered
    cases lowered
  | ok conditions =>
    rw [members] at lowered inside
    cases lowered
    exact inside.symm

/-- A predicate that says something of a row has a filter, which says the same of it. -/
theorem lowered_of_truth? {relations : Relations} {row : List Value} {table : Table}
    {predicate : Predicate} {truth : Truth}
    (truthIs : predicate.truth? relations row table = some truth) :
    ∃ filter, predicate.lower table = .ok filter ∧ filter.truth relations row = truth := by
  have inside := Lowering.spoken_lower relations row table .and false predicate
  rw [truthUnder, if_neg Bool.false_ne_true, truthIs] at inside
  obtain ⟨conditions, members, spoken⟩ := Option.map_eq_some_iff.mp inside
  rw [Predicate.lower]
  cases lowered : Lowering.lower table .and false predicate with
  | error refusal =>
    rw [lowered] at members
    cases members
  | ok found =>
    rw [lowered] at members
    cases members
    exact ⟨_, rfl, spoken⟩

end Predicate

/-- A predicate is lowered exactly where it says something, and the filter says the
same of every row. -/
theorem Predicate.toOption_lower_truth (relations : Relations) (row : List Value) (table : Table)
    (predicate : Predicate) :
    (predicate.lower table).toOption.map (Filter.truth relations row) =
      predicate.truth? relations row table := by
  have inside := Lowering.spoken_lower relations row table .and false predicate
  rw [Predicate.lower]
  cases lowered : Lowering.lower table .and false predicate with
  | error refusal =>
    rw [lowered] at inside
    exact inside
  | ok members =>
    rw [lowered] at inside
    exact inside

end RelationalAccess
