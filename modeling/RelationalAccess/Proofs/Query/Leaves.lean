import RelationalAccess.Proofs.Outcome
import RelationalAccess.Proofs.Query.Lowering

/-!
The leaves of a predicate: what is left of it without its NOTs, its conjunctions and its
disjunctions. Whether a predicate can be lowered is up to its leaves alone, one after the other,
and what it is lowered to has no empty group in it.
-/

namespace RelationalAccess

/-- The parts of a predicate that only NOTs and junctions stand above, from left to right. -/
def Predicate.leaves : Predicate → List Predicate
  | .not inner => inner.leaves
  | .join _ left right => left.leaves ++ right.leaves
  | other => [other]

theorem Predicate.leaves_of_leaf {predicate : Predicate} (notNot : ∀ inner, predicate ≠ .not inner)
    (notJoin : ∀ connective left right, predicate ≠ .join connective left right) :
    predicate.leaves = [predicate] := by
  rw [leaves] <;> assumption

/-- Whether an attempt succeeds, or else how it is refused. -/
def verdict (attempt : Except Error α) : Except Error Unit := attempt.map fun _ => ()

theorem verdict_bind_congr (attempt : Except Error α) {next other : α → Except Error β}
    (same : ∀ result, verdict (next result) = verdict (other result)) :
    verdict (attempt >>= next) = verdict (attempt >>= other) := by
  cases attempt with
  | error refusal => rfl
  | ok result => exact same result

/-- What is made of the result has no part in the verdict. -/
theorem verdict_made (attempt : Except Error α) (make : α → β) :
    verdict (do return make (← attempt)) = verdict attempt := by
  cases attempt <;> rfl

/-- Of two results that are put together the attempts are judged one after the other. -/
theorem verdict_both (first second : Except Error α) (gather : α → α → β) :
    verdict (do return gather (← first) (← second)) =
      (do verdict first; verdict second) := by
  cases first with
  | error refusal => rfl
  | ok result => cases second <;> rfl

@[simp] theorem verdict_ok (result : α) : verdict (.ok result) = .ok () := rfl

@[simp] theorem verdict_error (refusal : Error) :
    verdict (.error refusal : Except Error α) = .error refusal := rfl

theorem verdict_eq_ok_iff {attempt : Except Error α} :
    verdict attempt = .ok () ↔ ∃ result, attempt = .ok result := by
  cases attempt <;> simp

theorem verdict_eq_error_iff {attempt : Except Error α} {refusal : Error} :
    verdict attempt = .error refusal ↔ attempt = .error refusal := by
  cases attempt <;> simp

theorem refused_iff {attempt : Except Error α} :
    (∃ refusal, attempt = .error refusal) ↔ ¬ ∃ result, attempt = .ok result := by
  cases attempt <;> simp

namespace Lowering

/-! ### A leaf is refused alike under any NOTs -/

variable (table : Table) (negated : Bool)

theorem verdict_compareColumn (position : Nat) (comparator : Comparator) (value : Value) :
    verdict (compareColumn table position comparator negated value) =
      verdict (compareColumn table position comparator false value) := by
  simp only [compareColumn]
  cases table.columns[position]? with
  | none => rfl
  | some column =>
    cases value with
    | bool flag =>
      by_cases boolean : column.host = .bool <;> cases comparator <;>
        simp [equality?, boolean, operator?, Value.isNull]
    | _ => cases comparator <;> rfl

theorem verdict_compareValues (comparator : Comparator) (left right : Value) :
    verdict (compareValues comparator negated left right) =
      verdict (compareValues comparator false left right) := by
  cases comparator <;> rfl

theorem verdict_comparison (comparator : Comparator) (left right : Predicate) :
    verdict (comparison table comparator negated left right) =
      verdict (comparison table comparator false left right) := by
  refine verdict_bind_congr _ fun first => verdict_bind_congr _ fun second => ?_
  cases first with
  | column position =>
    cases second with
    | column other => rfl
    | value value => exact verdict_compareColumn table negated position comparator value
  | value value =>
    cases second with
    | column position => exact verdict_compareColumn table negated position comparator.flipped value
    | value other => exact verdict_compareValues negated comparator value other

theorem verdict_membership (values : List Value) (item : Predicate) :
    verdict (membership table negated values item) =
      verdict (membership table false values item) := by
  refine verdict_bind_congr _ fun operand => ?_
  cases operand with
  | value value => rfl
  | column position => cases values <;> rfl

theorem verdict_patternMatch (kind : Match) (target argument : Predicate) :
    verdict (patternMatch table negated kind target argument) =
      verdict (patternMatch table false kind target argument) := by
  refine verdict_bind_congr _ fun position => verdict_bind_congr _ fun operand => ?_
  cases operand with
  | column other => rfl
  | value value => cases value <;> rfl

theorem verdict_call (target : Predicate) (method : String) (arguments : List Predicate) :
    verdict (call table negated target method arguments) =
      verdict (call table false target method arguments) := by
  match arguments with
  | [] => rfl
  | [argument] =>
    simp only [call]
    split
    · cases target.listed? with
      | none => exact verdict_patternMatch table negated .anywhere target argument
      | some values => exact verdict_membership table negated values argument
    · split
      · exact verdict_patternMatch table negated .atStart target argument
      · split
        · exact verdict_patternMatch table negated .atEnd target argument
        · rfl
  | _ :: _ :: _ => rfl

theorem verdict_bareField (predicate : Predicate) :
    verdict (bareField table negated predicate) = verdict (bareField table false predicate) := by
  refine verdict_bind_congr _ fun position => ?_
  cases table.columns[position]? with
  | none => rfl
  | some column =>
    by_cases boolean : column.host = .bool
    · simpa [boolean] using verdict_compareColumn table negated position .eq (.bool true)
    · simp [boolean]

theorem verdict_leaf (predicate : Predicate) :
    verdict (leaf table negated predicate) = verdict (leaf table false predicate) := by
  cases predicate with
  | field name => exact verdict_bareField table negated (.field name)
  | unwrap inner => exact verdict_bareField table negated (.unwrap inner)
  | compare comparator left right => exact verdict_comparison table negated comparator left right
  | call target method arguments => exact verdict_call table negated target method arguments
  | constant value => cases value <;> rfl
  | _ => rfl

/-! ### A predicate is refused as the first of its leaves that is -/

theorem lower_leaf {table : Table} {predicate : Predicate}
    (notNot : ∀ inner, predicate ≠ .not inner)
    (notJoin : ∀ connective left right, predicate ≠ .join connective left right)
    (enclosing : Connective) (negated : Bool) :
    lower table enclosing negated predicate = do return [← leaf table negated predicate] := by
  rw [lower] <;> assumption

/-- NOTs and groups, those around the predicate and those in it, have no part in the verdict. -/
theorem verdict_lower (enclosing : Connective) (predicate : Predicate) :
    verdict (lower table enclosing negated predicate) =
      forM predicate.leaves fun leaf => verdict (leaf.lower table) := by
  fun_induction lower table enclosing negated predicate with
  | case1 enclosing negated inner inductionHypothesis => exact inductionHypothesis
  | case2 enclosing negated connective left right joins onLeft onRight =>
    rw [Predicate.leaves, List.forM_append, ← onLeft, ← onRight]
    exact verdict_both _ _ (· ++ ·)
  | case3 enclosing negated connective left right apart onLeft onRight =>
    rw [Predicate.leaves, List.forM_append, ← onLeft, ← onRight]
    exact verdict_both _ _ fun first second =>
      [Condition.group connective negated (first ++ second)]
  | case4 enclosing negated predicate notNot notJoin =>
    have byItself : verdict (predicate.lower table) = verdict (leaf table false predicate) := by
      rw [Predicate.lower, lower_leaf notNot notJoin, verdict_made, verdict_made]
    rw [Predicate.leaves_of_leaf notNot notJoin, List.forM_cons, List.forM_nil, byItself,
      bind_pure_unit, verdict_made]
    exact verdict_leaf table negated predicate

end Lowering

namespace Predicate

variable {table : Table} {predicate : Predicate}

theorem verdict_lower (table : Table) (predicate : Predicate) :
    verdict (predicate.lower table) =
      forM predicate.leaves fun leaf => verdict (leaf.lower table) := by
  rw [lower, verdict_made, Lowering.verdict_lower]

/-- A predicate is lowered exactly if each of its leaves is by itself. -/
theorem lower_eq_ok_iff :
    (∃ filter, predicate.lower table = .ok filter) ↔
      ∀ leaf ∈ predicate.leaves, ∃ filter, leaf.lower table = .ok filter := by
  simp only [← verdict_eq_ok_iff, verdict_lower table predicate, forM_eq_ok_iff]

theorem lower_refused_iff :
    (∃ refusal, predicate.lower table = .error refusal) ↔
      ∃ leaf ∈ predicate.leaves, ∃ refusal, leaf.lower table = .error refusal := by
  rw [refused_iff, lower_eq_ok_iff, not_forall]
  simp only [refused_iff, Classical.not_imp]

/-- It is refused exactly as the leftmost of its leaves that is refused by itself. -/
theorem lower_eq_error_iff {refusal : Error} :
    predicate.lower table = .error refusal ↔ ∃ before leaf after,
      predicate.leaves = before ++ leaf :: after ∧
      (∀ earlier ∈ before, ∃ filter, earlier.lower table = .ok filter) ∧
      leaf.lower table = .error refusal := by
  rw [← verdict_eq_error_iff, verdict_lower, forM_eq_error_iff]
  simp only [verdict_eq_ok_iff, verdict_eq_error_iff]

end Predicate

/-! ### What lowering comes to -/

/-- No group anywhere within a condition is empty. -/
inductive Condition.Populated : Condition → Prop where
  | comparison (comparison : Comparison) : Populated (.comparison comparison)
  | literal (holds : Bool) : Populated (.literal holds)
  | group {connective : Connective} {negated : Bool} {members : List Condition}
      (present : members ≠ []) (each : ∀ member ∈ members, Populated member) :
      Populated (.group connective negated members)

/-- A refusal for what a predicate names or for what it says. -/
def Error.IsOfPredicate (refusal : Error) : Prop :=
  refusal.kind = .invalidArgument ∨ refusal.kind = .notImplemented

/-- An attempt comes to a result of some kind, or it is refused for the predicate. -/
def Lowers (holds : α → Prop) (attempt : Except Error α) : Prop :=
  match attempt with
  | .ok result => holds result
  | .error refusal => refusal.IsOfPredicate

theorem Lowers.bind {holds : α → Prop} {further : β → Prop} {attempt : Except Error α}
    {next : α → Except Error β} (first : Lowers holds attempt)
    (second : ∀ result, holds result → Lowers further (next result)) :
    Lowers further (attempt >>= next) := by
  cases attempt with
  | error refusal => exact first
  | ok result => exact second result first

theorem lowers_fault {holds : α → Prop} (fault : PredicateFault) :
    Lowers holds (.error (.predicate fault)) := by
  cases fault with
  | orderedAgainstNull column => exact .inl rfl
  | _ => exact .inr rfl

theorem lowers_unknown {holds : α → Prop} (table column : String) :
    Lowers holds (.error (.unknownColumn table column)) :=
  .inl rfl

namespace Lowering

open Condition

variable (table : Table) (negated : Bool)

theorem lowers_operand (predicate : Predicate) :
    Lowers (fun _ => True) (operand table predicate) := by
  fun_induction operand table predicate with
  | case1 name =>
    simp only [column]
    cases table.columnIndex? name with
    | none => exact lowers_unknown _ _
    | some position => exact trivial
  | case2 inner inductionHypothesis => exact inductionHypothesis
  | case3 value => exact trivial
  | case4 other => exact lowers_fault _

theorem lowers_columnOf (predicate : Predicate) :
    Lowers (fun _ => True) (columnOf table predicate) := by
  refine (lowers_operand table predicate).bind fun operand _ => ?_
  cases operand with
  | column position => exact trivial
  | value value => exact lowers_fault _

theorem populated_booleanCondition (position : Nat) (column : Column) (equal flag : Bool) :
    (booleanCondition position column equal flag).Populated := by
  unfold booleanCondition
  split
  · exact .comparison _
  · split
    · refine .group (List.cons_ne_nil _ _) fun member listed => ?_
      rcases List.mem_pair.mp listed with rfl | rfl <;> exact .comparison _
    · exact .comparison _

theorem lowers_compareColumn (position : Nat) (comparator : Comparator) (value : Value) :
    Lowers Populated (compareColumn table position comparator negated value) := by
  unfold compareColumn
  split
  · exact lowers_unknown _ _
  · split
    · exact populated_booleanCondition _ _ _ _
    · split
      · exact lowers_fault _
      · exact .comparison _

theorem lowers_comparison (comparator : Comparator) (left right : Predicate) :
    Lowers Populated (comparison table comparator negated left right) := by
  refine (lowers_operand table left).bind fun first _ =>
    (lowers_operand table right).bind fun second _ => ?_
  cases first with
  | column position =>
    cases second with
    | column other => exact lowers_fault _
    | value value => exact lowers_compareColumn table negated position comparator value
  | value value =>
    cases second with
    | column position => exact lowers_compareColumn table negated position comparator.flipped value
    | value other =>
      simp only [compareValues]
      split
      · exact .literal _
      · exact lowers_fault _

theorem lowers_membership (values : List Value) (item : Predicate) :
    Lowers Populated (membership table negated values item) := by
  refine (lowers_operand table item).bind fun operand _ => ?_
  cases operand with
  | value value => exact .literal _
  | column position =>
    cases values with
    | nil => exact .literal _
    | cons first others => exact .comparison _

theorem lowers_patternMatch (kind : Match) (target argument : Predicate) :
    Lowers Populated (patternMatch table negated kind target argument) := by
  refine (lowers_columnOf table target).bind fun position _ =>
    (lowers_operand table argument).bind fun operand _ => ?_
  split
  · exact .comparison _
  · exact lowers_fault _

theorem lowers_call (target : Predicate) (method : String) (arguments : List Predicate) :
    Lowers Populated (call table negated target method arguments) := by
  unfold call
  split
  · split
    · split
      · exact lowers_membership table negated _ _
      · exact lowers_patternMatch table negated _ _ _
    · split
      · exact lowers_patternMatch table negated _ _ _
      · split
        · exact lowers_patternMatch table negated _ _ _
        · exact lowers_fault _
  · exact lowers_fault _

theorem lowers_bareField (predicate : Predicate) :
    Lowers Populated (bareField table negated predicate) := by
  refine (lowers_columnOf table predicate).bind fun position _ => ?_
  split
  · exact lowers_unknown _ _
  · split
    · exact lowers_compareColumn table negated position .eq (.bool true)
    · exact lowers_fault _

theorem lowers_leaf (predicate : Predicate) :
    Lowers Populated (leaf table negated predicate) := by
  unfold leaf
  split
  · exact lowers_comparison table negated _ _ _
  · exact lowers_call table negated _ _ _
  · exact .literal _
  · exact lowers_bareField table negated _
  · exact lowers_bareField table negated _
  · exact lowers_fault _

/-- A predicate adds at least one condition to the group around it. -/
theorem lowers_lower (enclosing : Connective) (predicate : Predicate) :
    Lowers (fun conditions => conditions ≠ [] ∧ ∀ condition ∈ conditions, condition.Populated)
      (lower table enclosing negated predicate) := by
  have append {before after : List Condition}
      (first : before ≠ [] ∧ ∀ condition ∈ before, condition.Populated)
      (second : after ≠ [] ∧ ∀ condition ∈ after, condition.Populated) :
      before ++ after ≠ [] ∧ ∀ condition ∈ before ++ after, condition.Populated :=
    ⟨List.append_ne_nil_of_left_ne_nil first.1 after,
      List.forall_mem_append.mpr ⟨first.2, second.2⟩⟩
  fun_induction lower table enclosing negated predicate with
  | case1 enclosing negated inner inductionHypothesis => exact inductionHypothesis
  | case2 enclosing negated connective left right joins onLeft onRight =>
    exact onLeft.bind fun before first => onRight.bind fun after second => append first second
  | case3 enclosing negated connective left right apart onLeft onRight =>
    exact onLeft.bind fun before first => onRight.bind fun after second =>
      have both := append first second
      ⟨List.cons_ne_nil _ _, List.forall_mem_singleton.mpr (.group both.1 both.2)⟩
  | case4 enclosing negated predicate notNot notJoin =>
    exact (lowers_leaf table negated predicate).bind fun condition populated =>
      ⟨List.cons_ne_nil _ _, List.forall_mem_singleton.mpr populated⟩

end Lowering

namespace Predicate

variable {table : Table} {predicate : Predicate}

/-- The filter of a predicate is a conjunction of at least one condition, and no group in it is
empty. -/
theorem populated_of_lower {filter : Filter} (lowered : predicate.lower table = .ok filter) :
    filter.connective = .and ∧ filter.negated = false ∧ filter.members ≠ [] ∧
      ∀ member ∈ filter.members, member.Populated := by
  have lowers := Lowering.lowers_lower table false .and predicate
  obtain ⟨members, isLowered, made⟩ := ok_of_bind lowered
  rw [isLowered] at lowers
  cases made
  exact ⟨rfl, rfl, lowers⟩

theorem refusal_of_lower {refusal : Error} (refused : predicate.lower table = .error refusal) :
    refusal.IsOfPredicate := by
  have lowers := (Lowering.lowers_lower table false .and predicate).bind fun members _ =>
    show Lowers (fun _ => True) (.ok ({ members } : Filter)) from trivial
  rw [lower] at refused
  have isRefused : Lowers (fun _ : Filter => True) (.error refusal) := refused ▸ lowers
  exact isRefused

end Predicate

end RelationalAccess
