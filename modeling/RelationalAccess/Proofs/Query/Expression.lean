import RelationalAccess.Proofs.Query.Truth

/-!
Conditions as boolean expressions over their comparisons. An expression has a value
once each place of a comparison in it has one, whatever the comparisons mean; so has a
condition, and they agree.
-/

namespace RelationalAccess

/-- A boolean expression over atoms of some kind. -/
inductive Expression (Atom : Type) where
  | constant (holds : Bool)
  | atom (atom : Atom)
  | not (inner : Expression Atom)
  | join (connective : Connective) (left right : Expression Atom)
  deriving DecidableEq

namespace Expression

variable {Atom Other : Type}

/-- The atoms of an expression from left to right. -/
def atoms : Expression Atom → List Atom
  | constant _ => []
  | atom only => [only]
  | not inner => inner.atoms
  | join _ left right => left.atoms ++ right.atoms

def map (change : Atom → Other) : Expression Atom → Expression Other
  | constant holds => constant holds
  | atom only => atom (change only)
  | not inner => not (inner.map change)
  | join connective left right => join connective (left.map change) (right.map change)

/-- The value of an expression, by what its atoms say at their places from left to right. -/
def truthBy (assigned : Nat → Atom → Truth) : Expression Atom → Truth
  | constant holds => .ofBool holds
  | atom only => assigned 0 only
  | not inner => (inner.truthBy assigned).not
  | join connective left right =>
    Truth.join connective (left.truthBy assigned)
      (right.truthBy fun place => assigned (left.atoms.length + place))

/-- The values of expressions that stand one behind another. -/
def truthsBy (assigned : Nat → Atom → Truth) : List (Expression Atom) → List Truth
  | [] => []
  | first :: others =>
    first.truthBy assigned :: truthsBy (fun place => assigned (first.atoms.length + place)) others

/-- An expression under a NOT, where there is one. -/
def negateIf (negated : Bool) (expression : Expression Atom) : Expression Atom :=
  if negated then not expression else expression

/-- Expressions joined from the left; of none, what the connective makes of nothing. -/
def joinAll (connective : Connective) : List (Expression Atom) → Expression Atom
  | [] => constant (decide (connective = .and))
  | first :: others => others.foldl (join connective) first

section

variable (change : Atom → Other)

theorem atoms_map (expression : Expression Atom) :
    (expression.map change).atoms = expression.atoms.map change := by
  induction expression with
  | constant holds => rfl
  | atom only => rfl
  | not inner inductionHypothesis => exact inductionHypothesis
  | join connective left right ofLeft ofRight => simp [map, atoms, ofLeft, ofRight]

theorem truthBy_map (assigned : Nat → Other → Truth) (expression : Expression Atom) :
    (expression.map change).truthBy assigned =
      expression.truthBy fun place atom => assigned place (change atom) := by
  induction expression generalizing assigned with
  | constant holds => rfl
  | atom only => rfl
  | not inner inductionHypothesis => simp [map, truthBy, inductionHypothesis]
  | join connective left right ofLeft ofRight =>
    simp [map, truthBy, ofLeft, ofRight, atoms_map]

theorem map_negateIf (negated : Bool) (expression : Expression Atom) :
    (expression.negateIf negated).map change = (expression.map change).negateIf negated := by
  cases negated <;> rfl

theorem map_joinAll (connective : Connective) (expressions : List (Expression Atom)) :
    (joinAll connective expressions).map change =
      joinAll connective (expressions.map (map change)) := by
  cases expressions with
  | nil => rfl
  | cons first others =>
    show (others.foldl _ first).map change = (others.map _).foldl _ (first.map change)
    induction others generalizing first with
    | nil => rfl
    | cons second rest inductionHypothesis => exact inductionHypothesis _

end

theorem atoms_negateIf (negated : Bool) (expression : Expression Atom) :
    (expression.negateIf negated).atoms = expression.atoms := by
  cases negated <;> rfl

theorem truthBy_negateIf (assigned : Nat → Atom → Truth) (negated : Bool)
    (expression : Expression Atom) :
    (expression.negateIf negated).truthBy assigned =
      (expression.truthBy assigned).negateIf negated := by
  cases negated <;> rfl

theorem atoms_foldl (connective : Connective) (first : Expression Atom)
    (others : List (Expression Atom)) :
    (others.foldl (join connective) first).atoms = first.atoms ++ others.flatMap atoms := by
  induction others generalizing first with
  | nil => simp
  | cons second rest inductionHypothesis =>
    simp [inductionHypothesis (join connective first second), atoms]

theorem atoms_joinAll (connective : Connective) (expressions : List (Expression Atom)) :
    (joinAll connective expressions).atoms = expressions.flatMap atoms := by
  cases expressions with
  | nil => rfl
  | cons first others => exact atoms_foldl connective first others

theorem truthBy_foldl (assigned : Nat → Atom → Truth) (connective : Connective)
    (first : Expression Atom) (others : List (Expression Atom)) :
    (others.foldl (join connective) first).truthBy assigned =
      Truth.join connective (first.truthBy assigned)
        (Truth.joinAll connective
          (truthsBy (fun place => assigned (first.atoms.length + place)) others)) := by
  induction others generalizing first with
  | nil => exact (Truth.join_unit_right _ _).symm
  | cons second rest inductionHypothesis =>
    simp only [List.foldl_cons, inductionHypothesis (join connective first second), truthBy, atoms,
      truthsBy, Truth.joinAll, List.foldr_cons, Truth.join_assoc, List.length_append, Nat.add_assoc]

theorem truthBy_joinAll (assigned : Nat → Atom → Truth) (connective : Connective)
    (expressions : List (Expression Atom)) :
    (joinAll connective expressions).truthBy assigned =
      Truth.joinAll connective (truthsBy assigned expressions) := by
  cases expressions with
  | nil => cases connective <;> rfl
  | cons first others => exact truthBy_foldl assigned connective first others

end Expression

namespace Comparison

/-- What a comparison says whatever the row. No value is in the empty list. -/
def constant? (comparison : Comparison) : Option Bool :=
  match comparison.operator with
  | .isIn => if comparison.operands.isEmpty then some false else none
  | .isNotIn => if comparison.operands.isEmpty then some true else none
  | _ => none

/-- What a comparison says if the test in it, its negation aside, has a given value. -/
def truthBy (value : Truth) (comparison : Comparison) : Truth :=
  ((comparison.constant?.map Truth.ofBool).getD value).negateIf comparison.negated

def expression (comparison : Comparison) : Expression Comparison :=
  ((comparison.constant?.map Expression.constant).getD (.atom comparison)).negateIf
    comparison.negated

end Comparison

namespace Condition

mutual

/-- The comparisons anywhere within a condition, from left to right. -/
def comparisons : Condition → List Comparison
  | .comparison atom => [atom]
  | .literal _ => []
  | .group _ _ members => comparisonsOfAll members

/-- The comparisons anywhere within several conditions. -/
def comparisonsOfAll : List Condition → List Comparison
  | [] => []
  | first :: others => first.comparisons ++ comparisonsOfAll others

end

theorem comparisonsOfAll_eq_flatMap (conditions : List Condition) :
    comparisonsOfAll conditions = conditions.flatMap comparisons := by
  induction conditions with
  | nil => rfl
  | cons first others inductionHypothesis =>
    rw [comparisonsOfAll, inductionHypothesis, List.flatMap_cons]

/-- The comparisons of a condition that depend on the row, from left to right. -/
def tests (condition : Condition) : List Comparison :=
  condition.comparisons.filter (·.constant?.isNone)

mutual

/-- The value of a condition, by what its tests say at their places from left to right.
An empty AND holds, and an empty OR fails. -/
def truthBy (assigned : Nat → Comparison → Truth) : Condition → Truth
  | .comparison test => test.truthBy (assigned 0 test)
  | .literal holds => .ofBool holds
  | .group connective negated members =>
    (Truth.joinAll connective (truthsBy assigned members)).negateIf negated

/-- The values of several conditions. -/
def truthsBy (assigned : Nat → Comparison → Truth) : List Condition → List Truth
  | [] => []
  | first :: others =>
    first.truthBy assigned :: truthsBy (fun place => assigned (first.tests.length + place)) others

end

mutual

/-- A condition as an expression over its tests. -/
def expression : Condition → Expression Comparison
  | .comparison test => test.expression
  | .literal holds => .constant holds
  | .group connective negated members =>
    (Expression.joinAll connective (expressions members)).negateIf negated

/-- Several conditions as expressions. -/
def expressions : List Condition → List (Expression Comparison)
  | [] => []
  | first :: others => first.expression :: expressions others

end

mutual

theorem atoms_expression (condition : Condition) :
    condition.expression.atoms = condition.tests := by
  match condition with
  | .comparison atom =>
    simp only [expression, Comparison.expression, tests, comparisons, Expression.atoms_negateIf]
    cases constant : atom.constant? <;> simp [constant, Expression.atoms]
  | .literal holds => rfl
  | .group connective negated members =>
    simp only [expression, tests, comparisons, Expression.atoms_negateIf, Expression.atoms_joinAll]
    exact atoms_expressions members

theorem atoms_expressions (conditions : List Condition) :
    (expressions conditions).flatMap Expression.atoms =
      (comparisonsOfAll conditions).filter (·.constant?.isNone) := by
  match conditions with
  | [] => rfl
  | first :: others =>
    simp [expressions, comparisonsOfAll, tests, atoms_expression first, atoms_expressions others]

end

mutual

/-- The expression of a condition has the condition's value. -/
theorem truthBy_expression (assigned : Nat → Comparison → Truth) (condition : Condition) :
    condition.expression.truthBy assigned = condition.truthBy assigned := by
  match condition with
  | .comparison test =>
    simp only [expression, Comparison.expression, truthBy, Comparison.truthBy,
      Expression.truthBy_negateIf]
    cases test.constant? <;> rfl
  | .literal holds => simp only [expression, truthBy, Expression.truthBy]
  | .group connective negated members =>
    simp only [expression, truthBy, Expression.truthBy_negateIf, Expression.truthBy_joinAll,
      truthsBy_expressions assigned members]

theorem truthsBy_expressions (assigned : Nat → Comparison → Truth) (conditions : List Condition) :
    Expression.truthsBy assigned (expressions conditions) = truthsBy assigned conditions := by
  match conditions with
  | [] => rfl
  | first :: others =>
    simp only [expressions, truthsBy, Expression.truthsBy, truthBy_expression assigned first,
      atoms_expression first, truthsBy_expressions _ others]

end

section

variable {assigned test : Comparison → Truth}

mutual

/-- Where its tests say the same at all places, a condition says what it says by them. -/
theorem truthBy_eq_truth (condition : Condition)
    (agree : ∀ atom ∈ condition.comparisons, atom.truthBy (assigned atom) = test atom) :
    condition.truthBy (fun _ => assigned) = condition.truth test := by
  match condition with
  | .comparison atom =>
    simp only [truthBy, truth]
    exact agree atom (by simp [comparisons])
  | .literal holds => simp only [truthBy, truth]
  | .group connective negated members =>
    simp only [truthBy, truth, truthsBy_eq_truths members (by simpa only [comparisons] using agree)]

theorem truthsBy_eq_truths (conditions : List Condition)
    (agree : ∀ atom ∈ comparisonsOfAll conditions, atom.truthBy (assigned atom) = test atom) :
    truthsBy (fun _ => assigned) conditions = truths test conditions := by
  match conditions with
  | [] => rfl
  | first :: others =>
    have ofFirst := truthBy_eq_truth first fun atom listed =>
      agree atom (by simp [comparisonsOfAll, listed])
    have ofOthers := truthsBy_eq_truths others fun atom listed =>
      agree atom (by simp [comparisonsOfAll, listed])
    simp only [truthsBy, truths, ofFirst, ofOthers]

end

end

end Condition

end RelationalAccess
