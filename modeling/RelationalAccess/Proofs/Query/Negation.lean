import RelationalAccess.Proofs.Query.Lowering

/-!
The laws of De Morgan. A NOT on a group negates it as a whole, while a NOT on a test of
a boolean column that may be null turns the test around, and a null passes both kinds of
inequality. The two ways of negation part on rows where such a test asks a null to equal a flag.
-/

namespace RelationalAccess

namespace FlagTest

variable (relations : Relations) {row : List Value}

/-- A null does not say whether it equals a flag. -/
theorem truth_of_null {test : FlagTest} (equal : test.equal = true)
    (isNull : row.getD test.column .null = .null) : test.truth relations row = .unknown := by
  rw [truth, if_pos equal, isNull]
  rfl

theorem truth_equal (column : Nat) (flag : Bool) :
    ({ column, equal := true, flag } : FlagTest).truth relations row =
      .equal relations (row.getD column .null) (.bool flag) := rfl

theorem truth_unequal (column : Nat) (flag : Bool) :
    ({ column, equal := false, flag } : FlagTest).truth relations row =
      if (row.getD column .null).isNull then .holds
      else .notEqual relations (row.getD column .null) (.bool flag) := rfl

/-- The opposite of a test holds where the test fails, and also where it asks a null to
equal a flag. -/
theorem truth_opposite_eq_holds (test : FlagTest) :
    test.opposite.truth relations row = .holds ↔
      test.truth relations row = .fails ∨ test.equal = true ∧ row.getD test.column .null = .null := by
  obtain ⟨column, equal, flag⟩ := test
  cases equal with
  | true =>
    rw [opposite, Bool.not_true, truth_equal, truth_unequal, ← Truth.not_equal]
    by_cases isNull : row.getD column .null = .null
    · rw [isNull]
      simp
    · rw [if_neg (mt (Value.isNull_iff _).mp isNull), Truth.not_eq_holds]
      exact (or_iff_left fun asks => isNull asks.2).symm
  | false =>
    rw [opposite, Bool.not_false, truth_equal, truth_unequal, ← Truth.not_notEqual]
    by_cases isNull : row.getD column .null = .null
    · have unknown : (Truth.notEqual relations .null (.bool flag)).not = .unknown := rfl
      rw [isNull, unknown]
      simp
    · rw [if_neg (mt (Value.isNull_iff _).mp isNull), Truth.not_eq_holds]
      exact (or_iff_left fun asks => Bool.false_ne_true asks.1).symm

end FlagTest

namespace Predicate

/-- A predicate that, with the NOTs right on it counted, asks a boolean column to equal a
flag, where the column may be null and is null in the row. -/
def AsksNull (table : Table) (row : List Value) (predicate : Predicate) : Prop :=
  ∃ test, predicate.flagTest? table = some test ∧ test.equal = true ∧
    row.getD test.column .null = .null

variable (relations : Relations) {row : List Value} {table : Table}

/-- A predicate that asks a null to equal a flag does not fail. -/
theorem AsksNull.not_fails {predicate : Predicate} {filter : Filter}
    (asks : predicate.AsksNull table row) (lowered : predicate.lower table = .ok filter) :
    filter.truth relations row ≠ .fails := by
  obtain ⟨test, found, equal, isNull⟩ := asks
  have truthIs := (truth?_of_lower relations row lowered).symm.trans
    (truth?_of_flagTest? relations row found)
  rw [Option.some.inj truthIs, test.truth_of_null relations equal isNull]
  decide

variable (row)

/-- The negation of a predicate holds where the predicate fails, and also where it asks a
null to equal a flag. -/
theorem lowered_not {predicate : Predicate} {filter : Filter}
    (lowered : predicate.lower table = .ok filter) :
    ∃ negated, (not predicate).lower table = .ok negated ∧
      (negated.truth relations row = .holds ↔
        filter.truth relations row = .fails ∨ predicate.AsksNull table row) := by
  have truthIs := truth?_of_lower relations row lowered
  cases found : predicate.flagTest? table with
  | some test =>
    have turned : (not predicate).flagTest? table = some test.opposite := by simp [flagTest?, found]
    obtain ⟨negated, loweredNot, same⟩ :=
      lowered_of_truth? (truth?_of_flagTest? relations row turned)
    refine ⟨negated, loweredNot, ?_⟩
    have sameTest := Option.some.inj (truthIs.symm.trans (truth?_of_flagTest? relations row found))
    rw [same, sameTest, test.truth_opposite_eq_holds, AsksNull, found]
    simp
  | none =>
    have unturned : (not predicate).flagTest? table = none := by simp [flagTest?, found]
    have saysNot : (not predicate).truth? relations row table =
        some (filter.truth relations row).not := by
      simp only [truth?, unturned, truthIs, Option.map_some]
    obtain ⟨negated, loweredNot, same⟩ := lowered_of_truth? saysNot
    refine ⟨negated, loweredNot, ?_⟩
    rw [same, Truth.not_eq_holds, AsksNull, found]
    simp

/-- A junction says what its sides say together. -/
theorem lowered_join {left right : Predicate} {first second : Filter} (connective : Connective)
    (lowersLeft : left.lower table = .ok first) (lowersRight : right.lower table = .ok second) :
    ∃ joined, (join connective left right).lower table = .ok joined ∧
      joined.truth relations row =
        .join connective (first.truth relations row) (second.truth relations row) := by
  apply lowered_of_truth?
  rw [truth?_join, truth?_of_lower relations row lowersLeft, truth?_of_lower relations row lowersRight]
  rfl

/-- The negation of a junction holds exactly where the junction fails. -/
theorem lowered_not_join {left right : Predicate} {first second : Filter} (connective : Connective)
    (lowersLeft : left.lower table = .ok first) (lowersRight : right.lower table = .ok second) :
    ∃ negated, (not (join connective left right)).lower table = .ok negated ∧
      (negated.truth relations row = .holds ↔
        Truth.join connective (first.truth relations row) (second.truth relations row) = .fails) := by
  obtain ⟨joined, lowered, truthIs⟩ := lowered_join relations row connective lowersLeft lowersRight
  obtain ⟨negated, loweredNot, negatedHolds⟩ := lowered_not relations row lowered
  have neverAsks : ¬ (join connective left right).AsksNull table row := by
    rintro ⟨_, isTest, _⟩
    cases isTest
  refine ⟨negated, loweredNot, ?_⟩
  rw [negatedHolds, truthIs, or_iff_left neverAsks]

/-- The negation of a conjunction holds where the disjunction of the negations does, if and only
if one side fails or no side asks a null to equal a flag. The negation of a disjunction holds
where the conjunction of the negations does, if and only if no side asks a null to equal a flag
while the other one fails or asks so too. -/
theorem deMorgan_iff {left right : Predicate} {first second : Filter}
    (lowersLeft : left.lower table = .ok first) (lowersRight : right.lower table = .ok second) :
    (∃ whole apart, (not (join .and left right)).lower table = .ok whole ∧
        (join .or (not left) (not right)).lower table = .ok apart ∧
        ((whole.truth relations row = .holds ↔ apart.truth relations row = .holds) ↔
          (left.AsksNull table row ∨ right.AsksNull table row →
            first.truth relations row = .fails ∨ second.truth relations row = .fails))) ∧
      ∃ whole apart, (not (join .or left right)).lower table = .ok whole ∧
        (join .and (not left) (not right)).lower table = .ok apart ∧
        ((whole.truth relations row = .holds ↔ apart.truth relations row = .holds) ↔
          ¬ (left.AsksNull table row ∧
              (second.truth relations row = .fails ∨ right.AsksNull table row)) ∧
            ¬ (right.AsksNull table row ∧
              (first.truth relations row = .fails ∨ left.AsksNull table row))) := by
  obtain ⟨notFirst, lowersNotLeft, notFirstHolds⟩ := lowered_not relations row lowersLeft
  obtain ⟨notSecond, lowersNotRight, notSecondHolds⟩ := lowered_not relations row lowersRight
  have leftStands (asks : left.AsksNull table row) := asks.not_fails relations lowersLeft
  have rightStands (asks : right.AsksNull table row) := asks.not_fails relations lowersRight
  constructor
  · obtain ⟨whole, lowersWhole, wholeHolds⟩ :=
      lowered_not_join relations row .and lowersLeft lowersRight
    obtain ⟨apart, lowersApart, apartSays⟩ :=
      lowered_join relations row .or lowersNotLeft lowersNotRight
    refine ⟨whole, apart, lowersWhole, lowersApart, ?_⟩
    rw [wholeHolds, apartSays, Truth.join, Truth.join, Truth.and_eq_fails, Truth.or_eq_holds,
      notFirstHolds, notSecondHolds]
    grind
  · obtain ⟨whole, lowersWhole, wholeHolds⟩ :=
      lowered_not_join relations row .or lowersLeft lowersRight
    obtain ⟨apart, lowersApart, apartSays⟩ :=
      lowered_join relations row .and lowersNotLeft lowersNotRight
    refine ⟨whole, apart, lowersWhole, lowersApart, ?_⟩
    rw [wholeHolds, apartSays, Truth.join, Truth.join, Truth.or_eq_fails, Truth.and_eq_holds,
      notFirstHolds, notSecondHolds]
    grind

end Predicate

/-- A table of items that may be flagged or not, and are known to be shown or not. -/
def flaggedItems : Table where
  id := 0
  name := "items"
  model := "items"
  columns :=
    [{ table := 0, position := 0, name := "flag", declared := [], nullable := true
       autoIncrement := false, primaryKey := false, property := "flag", host := .bool
       defaultValue := none },
     { table := 0, position := 1, name := "shown", declared := [], nullable := false
       autoIncrement := false, primaryKey := false, property := "shown", host := .bool
       defaultValue := none }]
  primaryKeys := []
  indices := []
  useCache := true

/-- An item whose flag is not known, and that is shown. -/
def unflaggedRow : List Value := [.null, .bool true]

namespace Predicate

/-- An item whose flag is not known is not found as one that is not both flagged and shown, but
it is found as one that is not flagged or not shown. -/
theorem unflaggedRow_splits :
    ∃ whole apart,
      (not (join .and (field "flag") (field "shown"))).lower flaggedItems = .ok whole ∧
        (join .or (not (field "flag")) (not (field "shown"))).lower flaggedItems = .ok apart ∧
        whole.truth .plain unflaggedRow = .unknown ∧ apart.truth .plain unflaggedRow = .holds :=
  ⟨_, _, rfl, rfl, rfl, rfl⟩

/-- The equivalences at the item whose flag is not known, where the first law fails and the
second one holds. -/
theorem deMorgan_iff_unflaggedRow :
    ∃ flagged shown, (field "flag").lower flaggedItems = .ok flagged ∧
      (field "shown").lower flaggedItems = .ok shown ∧
      (∃ whole apart,
        (not (join .and (field "flag") (field "shown"))).lower flaggedItems = .ok whole ∧
          (join .or (not (field "flag")) (not (field "shown"))).lower flaggedItems = .ok apart ∧
          ¬ (whole.truth .plain unflaggedRow = .holds ↔ apart.truth .plain unflaggedRow = .holds)) ∧
      ∃ whole apart,
        (not (join .or (field "flag") (field "shown"))).lower flaggedItems = .ok whole ∧
          (join .and (not (field "flag")) (not (field "shown"))).lower flaggedItems = .ok apart ∧
          (whole.truth .plain unflaggedRow = .holds ↔ apart.truth .plain unflaggedRow = .holds) := by
  have asks : (field "flag").AsksNull flaggedItems unflaggedRow :=
    ⟨{ column := 0, equal := true, flag := true }, rfl, rfl, rfl⟩
  have asksNot : ¬ (field "shown").AsksNull flaggedItems unflaggedRow := by
    rintro ⟨_, isTest, _⟩
    cases isTest
  have lowersFlag : (field "flag").lower flaggedItems = .ok _ := rfl
  have lowersShown : (field "shown").lower flaggedItems = .ok _ := rfl
  have laws := deMorgan_iff .plain unflaggedRow lowersFlag lowersShown
  refine ⟨_, _, lowersFlag, lowersShown, ?_, ?_⟩
  · obtain ⟨whole, apart, lowersWhole, lowersApart, agree⟩ := laws.1
    refine ⟨whole, apart, lowersWhole, lowersApart, fun same => ?_⟩
    exact absurd (agree.mp same (.inl asks)) (by decide)
  · obtain ⟨whole, apart, lowersWhole, lowersApart, agree⟩ := laws.2
    refine ⟨whole, apart, lowersWhole, lowersApart, agree.mpr ⟨fun fails => ?_, fun fails => ?_⟩⟩
    · exact absurd (fails.2.resolve_right asksNot) (by decide)
    · exact asksNot fails.1

end Predicate

end RelationalAccess
