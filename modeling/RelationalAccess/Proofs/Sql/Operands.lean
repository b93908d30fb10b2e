import RelationalAccess.Proofs.Query.Leaves
import RelationalAccess.Proofs.Query.Patterns
import RelationalAccess.Proofs.Sql.Parameters

/-!
The operands that a predicate asks for, leaf by leaf, are those of the filter that it is lowered
to, from left to right.
-/

namespace RelationalAccess

/-- The match that a method asks for. -/
def Lowering.Match.ofMethod? (method : String) : Option Lowering.Match :=
  [.anywhere, .atStart, .atEnd].find? fun kind => kind.method = method

namespace Predicate

/-- The column and the pattern of a match with a text, if the predicate is one. -/
def pattern? (table : Table) : Predicate → Option (Nat × String)
  | call target method [argument] =>
    match Lowering.Match.ofMethod? method, target.fieldIndex? table, argument.operand? table with
    | some kind, some position, some (.value (.text text)) =>
      some (position, Lowering.pattern kind text)
    | _, _, _ => none
  | _ => none

/-- What a comparison of two operands asks for. A test for null has no operand. -/
def askedOf : Option Lowering.Operand → Option Lowering.Operand → List (Nat × Value)
  | some (.column position), some (.value value)
  | some (.value value), some (.column position) => if value.isNull then [] else [(position, value)]
  | _, _ => []

/-- What the membership of an item in a list asks for. -/
def listedOf (values : List Value) : Option Lowering.Operand → List (Nat × Value)
  | some (.column position) => values.map (position, ·)
  | _ => []

/-- The operands that a leaf asks for, each with the position of its column. -/
def asked (table : Table) : Predicate → List (Nat × Value)
  | compare _ left right => askedOf (left.operand? table) (right.operand? table)
  | call target method [argument] =>
    match target.listed? with
    | some values => listedOf values (argument.operand? table)
    | none =>
      ((call target method [argument]).pattern? table).toList.map fun (position, pattern) =>
        (position, .text pattern)
  | field name => ((field name).fieldIndex? table).toList.map (·, .bool true)
  | unwrap inner => (inner.fieldIndex? table).toList.map (·, .bool true)
  | _ => []

end Predicate

/-- Comparisons of columns of a table that ask for some operands. -/
structure Asks (table : Table) (operands : List (Nat × Value)) (comparisons : List Comparison) :
    Prop where
  operands : comparisons.flatMap Comparison.operandsRead = operands
  placed : ∀ comparison ∈ comparisons, ∃ column, table.columns[comparison.column]? = some column

theorem Asks.append {table : Table} {operands others : List (Nat × Value)}
    {before after : List Comparison} (first : Asks table operands before)
    (second : Asks table others after) : Asks table (operands ++ others) (before ++ after) where
  operands := by rw [List.flatMap_append, first.operands, second.operands]
  placed := List.forall_mem_append.mpr ⟨first.placed, second.placed⟩

namespace Lowering

open Condition (literal)

variable {table : Table} {condition : Condition} {position : Nat} {value : Value}

theorem found_of_fieldIndex? {predicate : Predicate}
    (isField : predicate.fieldIndex? table = some position) :
    ∃ column, table.columns[position]? = some column := by
  unfold Predicate.fieldIndex? at isField
  split at isField
  · next isColumn =>
    cases isField
    exact Predicate.operand?_found isColumn
  · cases isField

theorem asks_literal (holds : Bool) : Asks table [] (literal holds).comparisons :=
  ⟨rfl, List.forall_mem_nil _⟩

theorem asks_comparison {comparison : Comparison} {column : Column} {values : List Value}
    (found : table.columns[position]? = some column) (isColumn : comparison.column = position)
    (areAsked : comparison.asked = values) :
    Asks table (values.map (position, ·)) (Condition.comparison comparison).comparisons := by
  subst isColumn areAsked
  exact ⟨List.append_nil _, List.forall_mem_singleton.mpr ⟨column, found⟩⟩

theorem asks_single {comparison : Comparison} {column : Column}
    (found : table.columns[position]? = some column) (isColumn : comparison.column = position)
    (isAsked : comparison.asked = [value]) :
    Asks table [(position, value)] (Condition.comparison comparison).comparisons :=
  asks_comparison found isColumn isAsked

theorem asks_booleanCondition {column : Column} (found : table.columns[position]? = some column)
    (equal flag : Bool) :
    Asks table [(position, .bool flag)]
      (booleanCondition position column equal flag).comparisons := by
  unfold booleanCondition
  split
  · exact asks_single found rfl rfl
  · split
    · refine ⟨rfl, fun comparison listed => ?_⟩
      rcases List.mem_pair.mp listed with rfl | rfl <;> exact ⟨column, found⟩
    · exact asks_single found rfl rfl

/-- The operator of a comparison with a constant takes it, unless it is a test for null. -/
theorem asked_of_operator? {comparator : Comparator} {operator : Operator} (negated : Bool)
    (isOperator : operator? comparator value.isNull = some operator) :
    Comparison.asked
      { column := position, operator, operands := if value.isNull then [] else [value], negated } =
      if value.isNull then [] else [value] := by
  cases null : value.isNull <;> rw [null] at isOperator <;> cases comparator <;>
    cases isOperator <;> rfl

variable {negated : Bool}

theorem asks_compareColumn {comparator : Comparator}
    (lowered : compareColumn table position comparator negated value = .ok condition) :
    Asks table (if value.isNull then [] else [(position, value)]) condition.comparisons := by
  unfold compareColumn at lowered
  split at lowered
  · cases lowered
  · next column found =>
    split at lowered
    · cases lowered
      exact asks_booleanCondition found _ _
    · split at lowered
      · cases lowered
      · next operator isOperator =>
        cases lowered
        have asks := asks_comparison found rfl (asked_of_operator? negated isOperator)
        rw [apply_ite (List.map (position, ·))] at asks
        exact asks

theorem asks_compareOperands {comparator : Comparator} {left right : Predicate}
    (lowered : comparison table comparator negated left right = .ok condition) :
    Asks table (Predicate.askedOf (left.operand? table) (right.operand? table))
      condition.comparisons := by
  obtain ⟨first, isFirst, further⟩ := ok_of_bind lowered
  obtain ⟨second, isSecond, made⟩ := ok_of_bind further
  rw [operand_eq_ok_iff.mp isFirst, operand_eq_ok_iff.mp isSecond]
  cases first with
  | column position =>
    cases second with
    | column other => cases made
    | value value => exact asks_compareColumn made
  | value value =>
    cases second with
    | column position => exact asks_compareColumn made
    | value other =>
      simp only [compareValues] at made
      split at made
      · cases made
        exact asks_literal _
      · cases made

theorem asks_membership {values : List Value} {item : Predicate}
    (lowered : membership table negated values item = .ok condition) :
    Asks table (Predicate.listedOf values (item.operand? table)) condition.comparisons := by
  obtain ⟨found, isFound, made⟩ := ok_of_bind lowered
  have isOperand := operand_eq_ok_iff.mp isFound
  rw [isOperand]
  cases found with
  | value value =>
    cases made
    exact asks_literal _
  | column position =>
    obtain ⟨column, isColumn⟩ := Predicate.operand?_found isOperand
    cases values with
    | nil =>
      cases made
      exact asks_literal _
    | cons first others =>
      cases made
      exact asks_comparison isColumn rfl (by cases negated <;> rfl)

/-- A match that is lowered is one of a field with a text, and asks for its pattern. -/
theorem asks_patternMatch {kind : Match} {target argument : Predicate}
    (lowered : patternMatch table negated kind target argument = .ok condition) :
    ∃ position text, target.fieldIndex? table = some position ∧
      argument.operand? table = some (.value (.text text)) ∧
      Asks table [(position, .text (pattern kind text))] condition.comparisons := by
  obtain ⟨position, isPosition, further⟩ := ok_of_bind lowered
  obtain ⟨found, isFound, made⟩ := ok_of_bind further
  have isField := columnOf_eq_ok_iff.mp isPosition
  obtain ⟨column, isColumn⟩ := found_of_fieldIndex? isField
  split at made
  · cases made
    exact ⟨position, _, isField, operand_eq_ok_iff.mp isFound, asks_single isColumn rfl rfl⟩
  · cases made

theorem asks_call {target : Predicate} {method : String} {arguments : List Predicate}
    (lowered : call table negated target method arguments = .ok condition) :
    Asks table ((Predicate.call target method arguments).asked table) condition.comparisons := by
  have ofPattern {kind : Match} {argument : Predicate} (isKind : Match.ofMethod? method = some kind)
      (lowered : patternMatch table negated kind target argument = .ok condition) :
      Asks table ((Predicate.call target method [argument]).asked table) condition.comparisons := by
    obtain ⟨position, text, isField, isText, asks⟩ := asks_patternMatch lowered
    simpa [Predicate.asked, Predicate.listed?_of_field isField, Predicate.pattern?, isKind, isField,
      isText] using asks
  unfold call at lowered
  split at lowered
  · next argument =>
    split at lowered
    · next isContains =>
      subst isContains
      split at lowered
      · next values isList =>
        simpa only [Predicate.asked, isList] using asks_membership lowered
      · exact ofPattern rfl lowered
    · split at lowered
      · next isStart =>
        subst isStart
        exact ofPattern rfl lowered
      · split at lowered
        · next isEnd =>
          subst isEnd
          exact ofPattern rfl lowered
        · cases lowered
  · cases lowered

theorem asks_bareField {predicate : Predicate}
    (lowered : bareField table negated predicate = .ok condition) :
    Asks table ((predicate.fieldIndex? table).toList.map (·, .bool true))
      condition.comparisons := by
  obtain ⟨position, isPosition, made⟩ := ok_of_bind lowered
  rw [columnOf_eq_ok_iff.mp isPosition]
  split at made
  · cases made
  · split at made
    · exact asks_compareColumn made
    · cases made

/-- A leaf is lowered to a condition that asks for the operands of the leaf. -/
theorem asks_leaf {predicate : Predicate}
    (lowered : leaf table negated predicate = .ok condition) :
    Asks table (predicate.asked table) condition.comparisons := by
  unfold leaf at lowered
  split at lowered
  · exact asks_compareOperands lowered
  · exact asks_call lowered
  · cases lowered
    exact asks_literal _
  · exact asks_bareField lowered
  · exact asks_bareField lowered
  · cases lowered

/-- A predicate adds conditions that ask for the operands of its leaves, from left to right. -/
theorem asks_lower {enclosing : Connective} {predicate : Predicate} {conditions : List Condition}
    (lowered : lower table enclosing negated predicate = .ok conditions) :
    Asks table (predicate.leaves.flatMap (Predicate.asked table))
      (Condition.comparisonsOfAll conditions) := by
  have both {left right : Predicate} {before after : List Condition}
      (first : Asks table (left.leaves.flatMap (Predicate.asked table))
        (Condition.comparisonsOfAll before))
      (second : Asks table (right.leaves.flatMap (Predicate.asked table))
        (Condition.comparisonsOfAll after)) :
      Asks table ((left.leaves ++ right.leaves).flatMap (Predicate.asked table))
        (Condition.comparisonsOfAll (before ++ after)) := by
    rw [Condition.comparisonsOfAll_eq_flatMap] at first second ⊢
    rw [List.flatMap_append, List.flatMap_append]
    exact first.append second
  fun_induction lower table enclosing negated predicate generalizing conditions with
  | case1 enclosing negated inner inductionHypothesis => exact inductionHypothesis lowered
  | case2 enclosing negated connective left right joins onLeft onRight =>
    obtain ⟨before, isBefore, further⟩ := ok_of_bind lowered
    obtain ⟨after, isAfter, made⟩ := ok_of_bind further
    cases made
    exact both (onLeft isBefore) (onRight isAfter)
  | case3 enclosing negated connective left right apart onLeft onRight =>
    obtain ⟨before, isBefore, further⟩ := ok_of_bind lowered
    obtain ⟨after, isAfter, made⟩ := ok_of_bind further
    cases made
    have inside := both (onLeft isBefore) (onRight isAfter)
    simpa [Predicate.leaves, Condition.comparisonsOfAll, Condition.comparisons] using inside
  | case4 enclosing negated predicate notNot notJoin =>
    obtain ⟨condition, isLeaf, made⟩ := ok_of_bind lowered
    cases made
    rw [Predicate.leaves_of_leaf notNot notJoin]
    simpa [Condition.comparisonsOfAll] using asks_leaf isLeaf

end Lowering

/-- The operands of the filter of a predicate. -/
theorem Predicate.asks_of_lower {table : Table} {predicate : Predicate} {filter : Filter}
    (lowered : predicate.lower table = .ok filter) :
    Asks table (predicate.leaves.flatMap (asked table)) filter.toCondition.comparisons := by
  obtain ⟨members, isLowered, made⟩ := ok_of_bind lowered
  cases made
  exact Lowering.asks_lower isLowered

end RelationalAccess
