import RelationalAccess.Query.Condition

/-!
What conditions say of a row, in the logic of SQL: a comparison with a null is
neither true nor false. How values are compared and how patterns are matched is
the engine's own and enters as relations that nothing is assumed of.
-/

namespace RelationalAccess

/-- The truth values of SQL. -/
inductive Truth where
  | holds
  | fails
  | unknown
  deriving DecidableEq

namespace Truth

def ofBool (flag : Bool) : Truth := if flag then holds else fails

def not : Truth → Truth
  | holds => fails
  | fails => holds
  | unknown => unknown

/-- The negation where one is asked for. -/
def negateIf (negated : Bool) (truth : Truth) : Truth := if negated then truth.not else truth

def and : Truth → Truth → Truth
  | fails, _ => fails
  | _, fails => fails
  | holds, holds => holds
  | _, _ => unknown

def or : Truth → Truth → Truth
  | holds, _ => holds
  | _, holds => holds
  | fails, fails => fails
  | _, _ => unknown

def join : Connective → Truth → Truth → Truth
  | .and => and
  | .or => or

/-- What a connective makes of nothing at all. -/
def unit : Connective → Truth
  | .and => holds
  | .or => fails

def joinAll (connective : Connective) (truths : List Truth) : Truth :=
  truths.foldr (join connective) (unit connective)

@[simp] theorem not_not (truth : Truth) : truth.not.not = truth := by
  cases truth <;> rfl

@[simp] theorem not_ofBool (flag : Bool) : (ofBool flag).not = ofBool (!flag) := by
  cases flag <;> rfl

@[simp] theorem negateIf_false_eq : negateIf false = id := rfl

@[simp] theorem negateIf_true_eq : negateIf true = not := rfl

theorem negateIf_ofBool (negated flag : Bool) :
    (ofBool flag).negateIf negated = ofBool (flag != negated) := by
  cases negated <;> cases flag <;> rfl

theorem join_assoc (connective : Connective) (first second third : Truth) :
    join connective (join connective first second) third =
      join connective first (join connective second third) := by
  cases connective <;> cases first <;> cases second <;> cases third <;> rfl

@[simp] theorem join_unit_left (connective : Connective) (truth : Truth) :
    join connective (unit connective) truth = truth := by
  cases connective <;> cases truth <;> rfl

@[simp] theorem join_unit_right (connective : Connective) (truth : Truth) :
    join connective truth (unit connective) = truth := by
  cases connective <;> cases truth <;> rfl

@[simp] theorem joinAll_singleton (connective : Connective) (truth : Truth) :
    joinAll connective [truth] = truth :=
  join_unit_right connective truth

@[simp] theorem joinAll_pair (connective : Connective) (first second : Truth) :
    joinAll connective [first, second] = join connective first second := by
  simp [joinAll]

theorem or_ofBool (flag : Bool) (truth : Truth) :
    (ofBool flag).or truth = if flag then holds else truth := by
  cases flag <;> cases truth <;> rfl

theorem joinAll_append (connective : Connective) (first second : List Truth) :
    joinAll connective (first ++ second) =
      join connective (joinAll connective first) (joinAll connective second) := by
  induction first with
  | nil => simp [joinAll]
  | cons truth rest inductionHypothesis =>
    have unfolded (truths : List Truth) :
        joinAll connective (truth :: truths) = join connective truth (joinAll connective truths) :=
      rfl
    rw [List.cons_append, unfolded, unfolded, inductionHypothesis, join_assoc]

@[simp] theorem not_eq_holds {truth : Truth} : truth.not = holds ↔ truth = fails := by
  cases truth <;> decide

@[simp] theorem ofBool_eq_holds {flag : Bool} : ofBool flag = holds ↔ flag = true := by
  cases flag <;> decide

@[simp] theorem ofBool_eq_fails {flag : Bool} : ofBool flag = fails ↔ flag = false := by
  cases flag <;> decide

theorem and_eq_holds {first second : Truth} :
    first.and second = holds ↔ first = holds ∧ second = holds := by
  cases first <;> cases second <;> decide

theorem and_eq_fails {first second : Truth} :
    first.and second = fails ↔ first = fails ∨ second = fails := by
  cases first <;> cases second <;> decide

theorem or_eq_holds {first second : Truth} :
    first.or second = holds ↔ first = holds ∨ second = holds := by
  cases first <;> cases second <;> decide

theorem or_eq_fails {first second : Truth} :
    first.or second = fails ↔ first = fails ∧ second = fails := by
  cases first <;> cases second <;> decide

theorem joinAll_and_eq_holds {truths : List Truth} :
    joinAll .and truths = holds ↔ ∀ truth ∈ truths, truth = holds := by
  induction truths with
  | nil => simp [joinAll, unit]
  | cons first others inductionHypothesis =>
    exact and_eq_holds.trans (by simp [← inductionHypothesis, joinAll])

theorem joinAll_or_eq_holds {truths : List Truth} :
    joinAll .or truths = holds ↔ holds ∈ truths := by
  induction truths with
  | nil => simp [joinAll, unit]
  | cons first others inductionHypothesis =>
    exact or_eq_holds.trans (by simp [← inductionHypothesis, joinAll, eq_comm])

theorem joinAll_or_eq_fails {truths : List Truth} :
    joinAll .or truths = fails ↔ ∀ truth ∈ truths, truth = fails := by
  induction truths with
  | nil => simp [joinAll, unit]
  | cons first others inductionHypothesis =>
    exact or_eq_fails.trans (by simp [← inductionHypothesis, joinAll])

end Truth

/-- How an engine compares values and matches texts with patterns, where neither
side is null. -/
structure Relations where
  equal : Value → Value → Bool
  greater : Value → Value → Bool
  greaterOrEqual : Value → Value → Bool
  less : Value → Value → Bool
  lessOrEqual : Value → Value → Bool
  like : Value → Value → Bool

/-- An engine that tells values apart as they are, and puts nothing in order. -/
def Relations.plain : Relations where
  equal left right := decide (left = right)
  greater _ _ := false
  greaterOrEqual left right := decide (left = right)
  less _ _ := false
  lessOrEqual left right := decide (left = right)
  like left right := decide (left = right)

/-- What a relation of a value to a constant says. A null leaves it open. -/
def Truth.relate (relation : Value → Value → Bool) (value constant : Value) : Truth :=
  if value.isNull || constant.isNull then .unknown else .ofBool (relation value constant)

section

variable (relations : Relations)

/-- Whether a value equals a constant. -/
def Truth.equal (value constant : Value) : Truth := relate relations.equal value constant

/-- Whether a value differs from a constant. -/
def Truth.notEqual (value constant : Value) : Truth :=
  relate (fun left right => !relations.equal left right) value constant

/-- Whether a value equals one of some constants. -/
def Truth.isIn (value : Value) (constants : List Value) : Truth :=
  joinAll .or (constants.map (equal relations value))

theorem Truth.not_equal (value constant : Value) :
    (equal relations value constant).not = notEqual relations value constant := by
  simp only [equal, notEqual, relate]
  split
  · rfl
  · rw [not_ofBool]

theorem Truth.not_notEqual (value constant : Value) :
    (notEqual relations value constant).not = equal relations value constant := by
  rw [← not_equal, not_not]

end

namespace Comparison

/-- What a comparison says of a row, its negation aside. A comparison without
operands is one with null. -/
def plainTruth (relations : Relations) (row : List Value) (comparison : Comparison) : Truth :=
  let value := row.getD comparison.column .null
  let constant := comparison.operands.headD .null
  match comparison.operator with
  | .equal => .equal relations value constant
  | .notEqual => .notEqual relations value constant
  | .greater => .relate relations.greater value constant
  | .greaterOrEqual => .relate relations.greaterOrEqual value constant
  | .less => .relate relations.less value constant
  | .lessOrEqual => .relate relations.lessOrEqual value constant
  | .like => .relate relations.like value constant
  | .isIn => .isIn relations value comparison.operands
  | .isNotIn => (Truth.isIn relations value comparison.operands).not
  | .isNull => .ofBool value.isNull
  | .isNotNull => .ofBool (!value.isNull)

/-- What a comparison says of a row. -/
def truth (relations : Relations) (row : List Value) (comparison : Comparison) : Truth :=
  (comparison.plainTruth relations row).negateIf comparison.negated

end Comparison

namespace Condition

mutual

/-- What a condition says, by what its comparisons say. -/
def truth (test : Comparison → Truth) : Condition → Truth
  | .comparison atom => test atom
  | .literal holds => .ofBool holds
  | .group connective negated members =>
    (Truth.joinAll connective (truths test members)).negateIf negated

/-- What several conditions say, one by one. -/
def truths (test : Comparison → Truth) : List Condition → List Truth
  | [] => []
  | first :: others => first.truth test :: truths test others

end

theorem truths_append (test : Comparison → Truth) (first second : List Condition) :
    truths test (first ++ second) = truths test first ++ truths test second := by
  induction first with
  | nil => rfl
  | cons condition rest inductionHypothesis => simp [truths, inductionHypothesis]

theorem truths_eq_map (test : Comparison → Truth) (conditions : List Condition) :
    truths test conditions = conditions.map (truth test) := by
  induction conditions with
  | nil => rfl
  | cons first others inductionHypothesis => rw [truths, inductionHypothesis, List.map_cons]

@[simp] theorem truths_singleton (test : Comparison → Truth) (condition : Condition) :
    truths test [condition] = [condition.truth test] := rfl

end Condition

/-- What a filter says of a row. -/
def Filter.truth (relations : Relations) (row : List Value) (filter : Filter) : Truth :=
  filter.toCondition.truth (Comparison.truth relations row)

end RelationalAccess
