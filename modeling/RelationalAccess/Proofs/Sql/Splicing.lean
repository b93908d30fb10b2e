import RelationalAccess.Proofs.Sql.Spacing
import RelationalAccess.Proofs.Sql.Writing

/-!
Acts of writing against the pieces that they stand for. An act writes pieces if it adds to any
statement what they make up behind the parameters there, and it binds pieces if it adds their
parameters alone and hands out their text. What is bound so may be joined and enclosed, and is then
written when it is put down.
-/

namespace RelationalAccess

namespace Piece

variable (dialect : Dialect)

/-- The texts of groups of pieces, the parameters being numbered through all of them. -/
def texts (first : Nat) : List (List Piece) → List String
  | [] => []
  | group :: others =>
    (Statement.assembleFrom dialect first group).text ::
      texts (first + parameterCount group) others

/-- A text is that of some pieces, which bind nothing. -/
def Spell (text : String) (pieces : List Piece) : Prop :=
  ∀ first, Statement.assembleFrom dialect first pieces = { text }

variable {dialect}

/-- Between words stands the first group and then each other one behind the words. -/
theorem separated_eq (separator : String) (group : List Piece) (others : List (List Piece)) :
    separated separator (group :: others) = group ++ others.flatMap (.words separator :: ·) := by
  induction others generalizing group with
  | nil => exact (List.append_nil group).symm
  | cons second rest inductionHypothesis => simp [separated, inductionHypothesis]

theorem assembleFrom_separated (separator : String) (groups : List (List Piece)) (first : Nat) :
    Statement.assembleFrom dialect first (separated separator groups) =
      { text := separator.intercalate (texts dialect first groups)
        parameters := (Statement.assembleFrom dialect first groups.flatten).parameters } := by
  fun_induction separated separator groups generalizing first with
  | case1 => rfl
  | case2 only => simp [texts]
  | case3 group others notEmpty inductionHypothesis =>
    obtain ⟨second, rest, rfl⟩ := List.exists_cons_of_ne_nil (l := others) (by simpa using notEmpty)
    rw [assembleFrom_append, Statement.assembleFrom, inductionHypothesis]
    simp [texts, assembleFrom_append, String.append_assoc]

theorem spell_words (words : String) : Spell dialect words [.words words] := fun first => by
  simp [Statement.assembleFrom]

theorem spell_name (name : String) : Spell dialect (dialect.quote name) [.name name] :=
  fun first => by simp [Statement.assembleFrom]

theorem Spell.append {text further : String} {pieces others : List Piece}
    (spells : Spell dialect text pieces) (spellsOthers : Spell dialect further others) :
    Spell dialect (text ++ further) (pieces ++ others) := fun first => by
  rw [assembleFrom_append, spells, spellsOthers]
  rfl

/-- Pieces between texts that bind nothing are numbered as they are by themselves. -/
theorem Spell.around {before after : String} {opening closing : List Piece}
    (opens : Spell dialect before opening) (closes : Spell dialect after closing) (first : Nat)
    (inner : List Piece) :
    Statement.assembleFrom dialect first (opening ++ inner ++ closing) =
      { Statement.assembleFrom dialect first inner with
        text := before ++ (Statement.assembleFrom dialect first inner).text ++ after } := by
  have none : parameterCount opening = 0 := by
    rw [← length_parameters_assembleFrom dialect first, opens]
    rfl
  simp [assembleFrom_append, opens first, closes _, none, String.append_assoc]

theorem Spell.separated {separator : String} {text : α → String} {pieces : α → List Piece}
    (spells : ∀ item, Spell dialect (text item) (pieces item)) (items : List α) :
    Spell dialect (separator.intercalate (items.map text))
      (Piece.separated separator (items.map pieces)) := fun first => by
  have unbound (first : Nat) :
      texts dialect first (items.map pieces) = items.map text ∧
        (Statement.assembleFrom dialect first (items.map pieces).flatten).parameters = [] := by
    induction items generalizing first with
    | nil => exact ⟨rfl, rfl⟩
    | cons item others inductionHypothesis =>
      have none : parameterCount (pieces item) = 0 := by
        rw [← length_parameters_assembleFrom dialect first, spells]
        rfl
      obtain ⟨same, further⟩ := inductionHypothesis first
      simp [texts, assembleFrom_append, spells item first, none, same, further]
  obtain ⟨same, none⟩ := unbound first
  rw [assembleFrom_separated, same, none]

theorem spell_names (dialect : Dialect) (columns : List Column) :
    Spell dialect (Writing.columnList dialect columns) (names (columns.map (·.name))) := by
  have each (column : Column) : Spell dialect (dialect.quote column.name) [.name column.name] :=
    spell_name column.name
  rw [names, List.map_map]
  exact .separated each columns

end Piece

/-- A statement with what pieces add to it: their text, and the values that they bind. -/
def Statement.extended (dialect : Dialect) (statement : Statement) (pieces : List Piece) :
    Statement :=
  let further := assembleFrom dialect statement.parameters.length pieces
  { text := statement.text ++ further.text
    parameters := statement.parameters ++ further.parameters }

theorem Statement.extended_append (dialect : Dialect) (statement : Statement)
    (before after : List Piece) :
    (statement.extended dialect before).extended dialect after =
      statement.extended dialect (before ++ after) := by
  simp [extended, Piece.assembleFrom_append, Piece.length_parameters_assembleFrom,
    String.append_assoc]

namespace Writing

theorem bind_apply (act : Writing α) (next : α → Writing β) (statement : Statement) :
    (act >>= next) statement = act statement >>= fun outcome => next outcome.1 outcome.2 :=
  rfl

theorem lift_apply (attempt : Except Error α) (statement : Statement) :
    (liftM attempt : Writing α) statement = do return (← attempt, statement) :=
  rfl

variable (dialect : Dialect)

/-- An act adds what pieces make up to any statement, or is refused as the pieces are. -/
def Writes (act : Writing Unit) (pieces : Except Error (List Piece)) : Prop :=
  ∀ statement : Statement, act statement = do return ((), statement.extended dialect (← pieces))

/-- An act binds what pieces bind, and hands out their text for the end of the statement. -/
def Binds (act : Writing String) (pieces : Except Error (List Piece)) : Prop :=
  ∀ statement : Statement, act statement = do
    let further := Statement.assembleFrom dialect statement.parameters.length (← pieces)
    return (further.text,
      { statement with parameters := statement.parameters ++ further.parameters })

variable {dialect}

theorem Writes.nothing : Writes dialect (pure ()) (.ok []) := fun statement => by
  have same : statement.extended dialect [] = statement := by
    simp [Statement.extended, Statement.assembleFrom]
  show Except.ok ((), statement) = Except.ok ((), statement.extended dialect [])
  rw [same]

theorem Writes.pushed {text : String} {pieces : List Piece}
    (spells : Piece.Spell dialect text pieces) : Writes dialect (push text) (.ok pieces) :=
  fun statement => by
    have same : statement.extended dialect pieces =
        { statement with text := statement.text ++ text } := by
      rw [Statement.extended, spells]
      simp
    show Except.ok _ = Except.ok ((), statement.extended dialect pieces)
    rw [same]

/-- Two acts one after the other write the pieces of both. -/
theorem Writes.both {first second : Writing Unit} {before after : Except Error (List Piece)}
    (onFirst : Writes dialect first before) (onSecond : Writes dialect second after) :
    Writes dialect (do first; second) (do return (← before) ++ (← after)) := fun statement => by
  rw [bind_apply, onFirst]
  cases before with
  | error refusal => rfl
  | ok pieces =>
    show second (statement.extended dialect pieces) = _
    rw [onSecond]
    cases after with
    | error refusal => rfl
    | ok further =>
      show Except.ok ((), (statement.extended dialect pieces).extended dialect further) = _
      rw [Statement.extended_append]
      rfl

theorem Writes.around {opens act closes : Writing Unit} {pieces : Except Error (List Piece)}
    {opening closing : List Piece} (onOpening : Writes dialect opens (.ok opening))
    (writes : Writes dialect act pieces) (onClosing : Writes dialect closes (.ok closing)) :
    Writes dialect (do opens; act; closes) (do return opening ++ (← pieces) ++ closing) := by
  have whole := onOpening.both (writes.both onClosing)
  cases pieces with
  | error refusal => exact whole
  | ok inner =>
    show Writes dialect _ (.ok (opening ++ inner ++ closing))
    rw [List.append_assoc]
    exact whole

theorem Writes.throws (refusal : Error) : Writes dialect (throw refusal) (.error refusal) :=
  fun _ => rfl

/-- What an attempt comes to before an act is known to both sides alike. -/
theorem Writes.attempt {attempt : Except Error α} {act : α → Writing Unit}
    {pieces : α → Except Error (List Piece)}
    (each : ∀ result, attempt = .ok result → Writes dialect (act result) (pieces result)) :
    Writes dialect (do act (← liftM attempt)) (do pieces (← attempt)) := fun statement => by
  rw [bind_apply, lift_apply]
  cases attempt with
  | error refusal => rfl
  | ok result => exact each result rfl statement

theorem bindValue_binds (dialect : Dialect) (value : Value) :
    Binds dialect (bindValue dialect value) (.ok [.bound value]) := fun statement => by
  show Except.ok _ = Except.ok _
  simp [Statement.assembleFrom]

theorem bindOperand_binds (dialect : Dialect) (column : Column) (value : Value) :
    Binds dialect (bindOperand dialect column value)
      (do return [.bound (← dialect.write column value)]) := fun statement => by
  rw [bindOperand, bind_apply, lift_apply]
  cases dialect.write column value with
  | error refusal => rfl
  | ok written => exact bindValue_binds dialect written statement

/-- A text that is handed out may be enclosed before it is put down. -/
theorem Binds.within {act : Writing String} {pieces : Except Error (List Piece)}
    {before after : String} {opening closing : List Piece} (binds : Binds dialect act pieces)
    (opens : Piece.Spell dialect before opening) (closes : Piece.Spell dialect after closing) :
    Binds dialect (do return before ++ (← act) ++ after)
      (do return opening ++ (← pieces) ++ closing) := fun statement => by
  rw [bind_apply, binds]
  cases pieces with
  | error refusal => rfl
  | ok inner =>
    show Except.ok _ = Except.ok _
    rw [opens.around closes]

/-- What is bound first and put down only then is written as it is bound. -/
theorem Binds.pushed {act : Writing String} {pieces : Except Error (List Piece)}
    (binds : Binds dialect act pieces) : Writes dialect (do push (← act)) pieces :=
  fun statement => by
    rw [bind_apply, binds]
    cases pieces <;> rfl

/-- Acts one after the other hand out the texts of their pieces, each of which takes up the
numbers where the one before it stops. -/
theorem mapM_apply {act : α → Writing String} {made : α → Except Error β} {pieces : β → List Piece}
    (each : ∀ item, Binds dialect (act item) (do return pieces (← made item))) (items : List α)
    (statement : Statement) :
    items.mapM act statement = do
      let groups := (← items.mapM made).map pieces
      let further := Statement.assembleFrom dialect statement.parameters.length groups.flatten
      return (Piece.texts dialect statement.parameters.length groups,
        { statement with parameters := statement.parameters ++ further.parameters }) := by
  induction items generalizing statement with
  | nil =>
    show Except.ok _ = Except.ok _
    simp [Piece.texts, Statement.assembleFrom]
  | cons item others inductionHypothesis =>
    rw [List.mapM_cons, List.mapM_cons, bind_apply, each]
    cases made item with
    | error refusal => rfl
    | ok result =>
      let bound := Statement.assembleFrom dialect statement.parameters.length (pieces result)
      let after := { statement with parameters := statement.parameters ++ bound.parameters }
      show (do
        let outcome ← others.mapM act after
        Except.ok (bound.text :: outcome.1, outcome.2)) = _
      rw [inductionHypothesis]
      cases others.mapM made with
      | error refusal => rfl
      | ok results =>
        show Except.ok _ = Except.ok _
        simp [after, bound, Piece.texts, Piece.assembleFrom_append,
          Piece.length_parameters_assembleFrom]

theorem Binds.separated {act : α → Writing String} {made : α → Except Error β}
    {pieces : β → List Piece}
    (each : ∀ item, Binds dialect (act item) (do return pieces (← made item))) (separator : String)
    (items : List α) :
    Binds dialect (do return separator.intercalate (← items.mapM act))
      (do return Piece.separated separator ((← items.mapM made).map pieces)) := fun statement => by
  rw [bind_apply, mapM_apply each]
  cases items.mapM made with
  | error refusal => rfl
  | ok results =>
    show Except.ok _ = Except.ok _
    rw [Piece.assembleFrom_separated]

end Writing

end RelationalAccess
