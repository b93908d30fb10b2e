import RelationalAccess.Proofs.Query.Leaves

/-!
Lowering as one pass over a predicate with a state that all its parts share: NOTs are counted
until something takes them up, and the groups that are being filled stand on a stack. Whatever the
pass holds when it comes to a part, it adds there what the part is lowered to.
-/

namespace RelationalAccess

/-- The state of a pass over a predicate. -/
structure Pass where
  /-- The NOTs that nothing has taken up. -/
  nots : Nat := 0
  root : Filter := {}
  /-- The groups within the root that are not closed, the innermost first. -/
  opened : List Filter := []

namespace Pass

/-- A part of a pass. It may be refused, and leaves a state then too. -/
abbrev Act := ExceptT Error (StateM Pass)

def underflow : Error := .reported .invalidState "predicate group stack underflow"

/-- The group that is being filled. -/
def current (pass : Pass) : Filter := pass.opened.headD pass.root

def negated (pass : Pass) : Bool := decide (pass.nots % 2 = 1)

def calm (pass : Pass) : Pass := { pass with nots := 0 }

/-- Adds conditions to the group that is being filled. -/
def add (conditions : List Condition) (pass : Pass) : Pass :=
  match pass.opened with
  | [] => { pass with root := { pass.root with members := pass.root.members ++ conditions } }
  | group :: outer =>
    { pass with opened := { group with members := group.members ++ conditions } :: outer }

/-- Takes up all NOTs, of which two cancel out. -/
def takeNegation : Act Bool := do
  let pass ← get
  set pass.calm
  return pass.negated

def emit (condition : Condition) : Act Unit := modify (add [condition])

def openGroup (connective : Connective) (negated : Bool) : Act Unit :=
  modify fun pass => { pass with opened := { connective, negated } :: pass.opened }

/-- Takes the innermost group off the stack. -/
def closeGroup : Act Filter := do
  let pass ← get
  match pass.opened with
  | [] => throw underflow
  | group :: outer =>
    set { pass with opened := outer }
    return group

/-- A group as a member of the one around it. A single member stands for its group, unless that
is negated. -/
def condense (group : Filter) : Condition :=
  match group.negated, group.members with
  | false, [only] => only
  | _, _ => group.toCondition

/-- Adds a group with what its members add. A refusal of them goes on only when the group is off
the stack. -/
def inGroup (connective : Connective) (negated : Bool) (members : Act Unit) : Act Unit := do
  openGroup connective negated
  let outcome ← ExceptT.lift members.run
  let group ← closeGroup
  liftM outcome
  emit (condense group)

/-- Adds what a predicate says to the group that is being filled. -/
def visit (table : Table) : Predicate → Act Unit
  | .not inner => do
    modify fun pass => { pass with nots := pass.nots + 1 }
    visit table inner
  | .join connective left right => do
    let negated ← takeNegation
    let enclosing := (← get).current.connective
    if negated = false ∧ enclosing = connective then do
      visit table left
      visit table right
    else
      inGroup connective negated do
        visit table left
        visit table right
  | other => do
    -- a refused leaf may as well leave the NOTs, for nothing reads them after it
    let negated ← takeNegation
    let condition ← liftM (Lowering.leaf table negated other)
    emit condition

/-- The filter that a whole pass fills. -/
def run (table : Table) (predicate : Predicate) : Except Error Filter :=
  match visit table predicate {} with
  | (.ok (), pass) => .ok pass.root
  | (.error refusal, _) => .error refusal

/-! ### What an act does to the state -/

section

variable (pass : Pass) (before after : List Condition)

@[simp] theorem current_calm : pass.calm.current = pass.current := rfl

@[simp] theorem opened_calm : pass.calm.opened = pass.opened := rfl

@[simp] theorem negated_calm : pass.calm.negated = false := rfl

@[simp] theorem calm_calm : pass.calm.calm = pass.calm := rfl

theorem negated_not : ({ pass with nots := pass.nots + 1 } : Pass).negated = !pass.negated := by
  simp only [negated]
  rcases Nat.mod_two_eq_zero_or_one pass.nots with even | odd
  · simp [Nat.add_mod, even]
  · simp [Nat.add_mod, odd]

theorem add_add : (pass.add before).add after = pass.add (before ++ after) := by
  obtain ⟨nots, root, _ | ⟨group, outer⟩⟩ := pass <;> simp [add]

@[simp] theorem connective_add :
    (pass.add before).current.connective = pass.current.connective := by
  obtain ⟨nots, root, _ | ⟨group, outer⟩⟩ := pass <;> rfl

@[simp] theorem calm_add : (pass.add before).calm = pass.calm.add before := by
  obtain ⟨nots, root, _ | ⟨group, outer⟩⟩ := pass <;> rfl

@[simp] theorem length_opened_add : (pass.add before).opened.length = pass.opened.length := by
  obtain ⟨nots, root, _ | ⟨group, outer⟩⟩ := pass <;> rfl

theorem negated_calm_add : (pass.calm.add before).negated = false := by
  obtain ⟨nots, root, _ | ⟨group, outer⟩⟩ := pass <;> rfl

theorem openGroup_apply (connective : Connective) (negated : Bool) :
    openGroup connective negated pass =
      (.ok (), { pass with opened := { connective, negated } :: pass.opened }) :=
  rfl

theorem closeGroup_apply {pass : Pass} {group : Filter} {outer : List Filter}
    (top : pass.opened = group :: outer) :
    closeGroup pass = (.ok group, { pass with opened := outer }) := by
  obtain ⟨nots, root, opened⟩ := pass
  subst top
  rfl

theorem emit_apply (condition : Condition) :
    emit condition pass = (.ok (), pass.add [condition]) :=
  rfl

/-- What an act comes to is kept as a result, whether it is refused or not. -/
theorem kept_apply (act : Act Unit) :
    (ExceptT.lift act.run : Act (Except Error Unit)) pass = (.ok (act pass).1, (act pass).2) :=
  rfl

end

/-- Only a group with at most one member is not a member as it is. -/
theorem condense_of_many {group : Filter} (many : 1 < group.members.length) :
    condense group = group.toCondition := by
  unfold condense
  split
  · next single => simp [single] at many
  · rfl

/-! ### A pass adds what it lowers to -/

/-- What an act leaves of a state where it stands for conditions that are added to the group that
is being filled, or for a refusal, which leaves as many groups on the stack as there were. -/
def Adds (lowered : Except Error (List Condition)) (pass : Pass)
    (outcome : Except Error Unit × Pass) : Prop :=
  match lowered with
  | .ok conditions => outcome = (.ok (), pass.calm.add conditions)
  | .error refusal =>
    ∃ after, outcome = (.error refusal, after) ∧ after.opened.length = pass.opened.length

/-- An act stands for what is lowered, in every group of a connective and under every number of
NOTs that comes to `negated`. -/
def StandsFor (act : Act Unit) (enclosing : Connective) (negated : Bool)
    (lowered : Except Error (List Condition)) : Prop :=
  ∀ pass : Pass, pass.current.connective = enclosing → pass.negated = negated →
    Adds lowered pass (act pass)

section

variable {enclosing connective : Connective} {negated : Bool}

/-- Two acts one after the other add to the same group. -/
theorem StandsFor.both {first second : Act Unit} {left right : Except Error (List Condition)}
    (onLeft : StandsFor first enclosing negated left)
    (onRight : StandsFor second enclosing false right) :
    StandsFor (do first; second) enclosing negated (do return (← left) ++ (← right)) := by
  intro pass isEnclosing isNegated
  have added := onLeft pass isEnclosing isNegated
  rw [bind_apply]
  cases left with
  | error refusal =>
    obtain ⟨after, refused, sameLength⟩ := added
    rw [refused]
    exact ⟨after, rfl, sameLength⟩
  | ok before =>
    rw [show first pass = _ from added]
    have furtherAdded := onRight (pass.calm.add before) (by simpa using isEnclosing)
      (negated_calm_add pass before)
    cases right with
    | error refusal =>
      obtain ⟨after, refused, sameLength⟩ := furtherAdded
      exact ⟨after, refused, by simpa using sameLength⟩
    | ok further =>
      calc second (pass.calm.add before)
        _ = (.ok (), (pass.calm.add before).calm.add further) := furtherAdded
        _ = (.ok (), pass.calm.add (before ++ further)) := by rw [calm_add, add_add, calm_calm]

/-- A group that is opened is on top of the stack when its members are visited. -/
theorem StandsFor.inGroup {members : Act Unit} {lowered : Except Error (List Condition)}
    (stands : StandsFor members connective false lowered)
    (many : ∀ conditions, lowered = .ok conditions → 1 < conditions.length) {pass : Pass}
    (isCalm : pass.negated = false) :
    Adds (do return [.group connective negated (← lowered)]) pass
      (Pass.inGroup connective negated members pass) := by
  -- the members are visited with their own group as the one that is being filled
  have added := stands { pass with opened := { connective, negated } :: pass.opened } rfl isCalm
  simp only [Pass.inGroup, bind_apply, openGroup_apply, kept_apply]
  cases lowered with
  | error refusal =>
    obtain ⟨after, refused, sameLength⟩ := added
    obtain ⟨group, outer, top⟩ := List.exists_cons_of_length_eq_add_one sameLength
    rw [refused]
    simp only [closeGroup_apply top, lift_apply]
    exact ⟨_, rfl, by simpa [top] using sameLength⟩
  | ok conditions =>
    have isMember : condense { connective, negated, members := conditions } =
        .group connective negated conditions := condense_of_many (many conditions rfl)
    have top : (({ pass with opened := { connective, negated } :: pass.opened } : Pass).calm.add
        conditions).opened = { connective, negated, members := conditions } :: pass.opened := rfl
    rw [show members _ = _ from added]
    simp only [closeGroup_apply top, lift_apply, emit_apply, isMember]
    rfl

end

section

variable (table : Table) (pass : Pass)

theorem visit_join (connective : Connective) (left right : Predicate) :
    visit table (.join connective left right) pass =
      if pass.negated = false ∧ pass.current.connective = connective then
        (do visit table left; visit table right : Act Unit) pass.calm
      else
        inGroup connective pass.negated (do visit table left; visit table right) pass.calm := by
  rw [visit]
  show (ite _ _ _ : Act Unit) pass.calm = _
  rw [apply_ite (fun act : Act Unit => act pass.calm)]
  rfl

theorem visit_leaf {predicate : Predicate} (notNot : ∀ inner, predicate ≠ .not inner)
    (notJoin : ∀ connective left right, predicate ≠ .join connective left right) :
    visit table predicate pass =
      (liftM (Lowering.leaf table pass.negated predicate) >>= emit : Act Unit) pass.calm := by
  rw [visit] <;> first | rfl | assumption

end

/-- A join has at least two conditions, for each of its sides has one. -/
theorem many_of_join {table : Table} {connective : Connective} {left right : Predicate}
    {conditions : List Condition}
    (lowered : (do return (← Lowering.lower table connective false left) ++
      (← Lowering.lower table connective false right)) = .ok conditions) :
    1 < conditions.length := by
  have present {predicate : Predicate} {conditions : List Condition}
      (isLowered : Lowering.lower table connective false predicate = .ok conditions) :
      0 < conditions.length := by
    have lowers := Lowering.lowers_lower table false connective predicate
    rw [isLowered] at lowers
    exact List.length_pos_iff.mpr lowers.1
  obtain ⟨before, onLeft, rest⟩ := ok_of_bind lowered
  obtain ⟨after, onRight, made⟩ := ok_of_bind rest
  cases made
  have first := present onLeft
  have second := present onRight
  rw [List.length_append]
  omega

/-- Visiting a predicate stands for lowering it. -/
theorem visit_standsFor (table : Table) (enclosing : Connective) (negated : Bool)
    (predicate : Predicate) :
    StandsFor (visit table predicate) enclosing negated
      (Lowering.lower table enclosing negated predicate) := by
  fun_induction Lowering.lower table enclosing negated predicate with
  | case1 enclosing negated inner inductionHypothesis =>
    intro pass isEnclosing isNegated
    exact inductionHypothesis { pass with nots := pass.nots + 1 } isEnclosing
      (by rw [negated_not, isNegated])
  | case2 enclosing negated connective left right joins onLeft onRight =>
    intro pass isEnclosing isNegated
    rw [visit_join, if_pos (by rwa [isNegated, isEnclosing])]
    exact onLeft.both onRight pass.calm isEnclosing rfl
  | case3 enclosing negated connective left right apart onLeft onRight =>
    intro pass isEnclosing isNegated
    rw [visit_join, if_neg (by rwa [isNegated, isEnclosing]), isNegated]
    have grouped : Adds _ pass.calm (inGroup connective negated _ pass.calm) :=
      (onLeft.both onRight).inGroup (fun _ => many_of_join) pass.negated_calm
    simp only [bind_assoc, pure_bind] at grouped
    exact grouped
  | case4 enclosing negated predicate notNot notJoin =>
    intro pass isEnclosing isNegated
    rw [visit_leaf table pass notNot notJoin, bind_apply, lift_apply, isNegated]
    cases Lowering.leaf table negated predicate with
    | error refusal => exact ⟨pass.calm, rfl, rfl⟩
    | ok condition => rfl

/-- The pass fills the filter that the predicate is lowered to, or is refused as lowering is. -/
theorem run_eq (table : Table) (predicate : Predicate) :
    run table predicate = predicate.lower table := by
  have added := visit_standsFor table .and false predicate {} rfl rfl
  rw [run, Predicate.lower]
  cases lowered : Lowering.lower table .and false predicate with
  | error refusal =>
    rw [lowered] at added
    obtain ⟨after, refused, _⟩ := added
    rw [refused]
    rfl
  | ok conditions =>
    rw [lowered] at added
    rw [show visit table predicate {} = _ from added]
    rfl

end Pass

end RelationalAccess
