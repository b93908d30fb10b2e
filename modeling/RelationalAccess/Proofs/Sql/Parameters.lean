import RelationalAccess.Proofs.Sql.Selected
import RelationalAccess.Proofs.Sql.WrittenStatements

/-!
The parameters of a statement against the operands that it is made for. Read from the left,
outside names and texts in quotes, the marks in the text are those of the parameters, each
once and in order, and each parameter holds the bound form of the operand at its place.
-/

namespace RelationalAccess

/-- The name in the mark of a parameter. -/
def Token.parameterName? : Token → Option String
  | .parameter called => some called
  | _ => none

theorem Token.parameterName?_of_not_isParameter {token : Token}
    (fixed : token.isParameter = false) : token.parameterName? = none := by
  cases token <;> first | rfl | cases fixed

/-- The parameters that are marked in the text of a statement, by name, from left to right. -/
def Statement.marks (dialect : Dialect) (statement : Statement) : List String :=
  (Token.ofText dialect statement.text.toList).filterMap Token.parameterName?

/-- The bound form of an operand, which is a value for the column at a position. -/
def Table.Writes (dialect : Dialect) (table : Table) (operand : Nat × Value) (bound : Value) :
    Prop :=
  ∃ column, table.columns[operand.1]? = some column ∧ dialect.write column operand.2 = .ok bound

namespace Piece

variable {dialect : Dialect} {table : Table}

def boundValue? : Piece → Option Value
  | .bound value => some value
  | _ => none

/-- The values that pieces bind, in their order. -/
def boundValues (pieces : List Piece) : List Value := pieces.filterMap boundValue?

@[simp] theorem boundValues_nil : boundValues [] = [] := rfl

@[simp] theorem boundValues_words (words : String) (rest : List Piece) :
    boundValues (.words words :: rest) = boundValues rest := rfl

@[simp] theorem boundValues_name (name : String) (rest : List Piece) :
    boundValues (.name name :: rest) = boundValues rest := rfl

@[simp] theorem boundValues_bound (value : Value) (rest : List Piece) :
    boundValues (.bound value :: rest) = value :: boundValues rest := rfl

@[simp] theorem boundValues_append (before after : List Piece) :
    boundValues (before ++ after) = boundValues before ++ boundValues after :=
  List.filterMap_append

theorem boundValues_separated (separator : String) (groups : List (List Piece)) :
    boundValues (separated separator groups) = groups.flatMap boundValues := by
  fun_induction separated separator groups with
  | case1 => rfl
  | case2 only => simp
  | case3 first others _ inductionHypothesis => simp [inductionHypothesis]

@[simp] theorem boundValues_names (list : List String) : boundValues (names list) = [] := by
  rw [names, boundValues_separated, List.flatMap_map]
  exact List.flatMap_eq_nil_iff.mpr fun _ _ => rfl

/-- Between commas and in parentheses pieces bind what they bind by themselves. -/
theorem boundValues_list (column opening : String) (pieces : List Piece) :
    boundValues (.name column :: .words opening ::
      (separated ", " (pieces.map ([·])) ++ [.words ")"])) = boundValues pieces := by
  have single : pieces.flatMap (fun piece => boundValues [piece]) = boundValues pieces := by
    induction pieces with
    | nil => rfl
    | cons piece rest inductionHypothesis =>
      rw [List.flatMap_cons, inductionHypothesis, ← boundValues_append, List.singleton_append]
  simp [boundValues_separated, List.flatMap_map, single]

theorem boundValues_enclose (connective : Connective) (negated : Bool)
    (members : List (List Piece)) :
    boundValues (Condition.enclose connective negated members) = members.flatMap boundValues := by
  cases members with
  | nil => cases negated <;> rfl
  | cons first others =>
    have joined := boundValues_separated (Condition.joiner connective) (first :: others)
    unfold Condition.enclose
    rw [if_neg (by simp)]
    split
    · cases negated <;> simp [joined]
    · exact joined

/-- The parameters of pieces hold what the pieces bind, under their numbers. -/
theorem parameters_assembleFrom (first : Nat) (pieces : List Piece) :
    (Statement.assembleFrom dialect first pieces).parameters =
      ((boundValues pieces).zipIdx first).map fun (value, number) =>
        (Statement.parameterName number, value) := by
  induction pieces generalizing first with
  | nil => rfl
  | cons piece rest inductionHypothesis =>
    cases piece <;> simp [Statement.assembleFrom, inductionHypothesis]

/-- The marks among the tokens of pieces are those of what the pieces bind. -/
theorem marks_numbered {pieces : List Piece}
    (fixed : ∀ words, .words words ∈ pieces →
      ∀ token ∈ Token.ofText dialect words.toList, token.isParameter = false) (first : Nat) :
    (numbered dialect first pieces).filterMap Token.parameterName? =
      ((boundValues pieces).zipIdx first).map fun (_, number) =>
        Statement.parameterName number := by
  induction pieces generalizing first with
  | nil => rfl
  | cons piece rest inductionHypothesis =>
    have further := inductionHypothesis fun words listed =>
      fixed words (List.mem_cons_of_mem _ listed)
    cases piece with
    | words words =>
      have unmarked : (Token.ofText dialect words.toList).filterMap Token.parameterName? = [] :=
        List.filterMap_eq_nil_iff.mpr fun token isRead =>
          Token.parameterName?_of_not_isParameter (fixed words List.mem_cons_self token isRead)
      rw [numbered, List.filterMap_append, unmarked, List.nil_append, further, boundValues_words]
    | name called => exact further first
    | bound value =>
      have marked : Token.parameterName? (.parameter (Statement.parameterName first)) =
          some (Statement.parameterName first) := rfl
      rw [numbered, List.filterMap_cons_some marked, further, boundValues_bound, List.zipIdx_cons,
        List.map_cons]

/-- Pieces that bind the written forms of some operands, in the order of these. -/
structure Carries (dialect : Dialect) (table : Table) (operands : List (Nat × Value))
    (pieces : List Piece) : Prop where
  spaced : Spaced dialect pieces
  bound : List.Forall₂ (table.Writes dialect) operands (boundValues pieces)

variable {operands others : List (Nat × Value)} {before after pieces : List Piece}

theorem Carries.ofFixed (spaced : Spaced dialect pieces) (unbound : boundValues pieces = []) :
    Carries dialect table [] pieces :=
  ⟨spaced, unbound ▸ .nil⟩

theorem carries_words {words : String} (whole : wholeWords dialect words = true) :
    Carries dialect table [] [.words words] :=
  .ofFixed (spaced_words whole) rfl

theorem carries_name (name : String) : Carries dialect table [] [.name name] :=
  .ofFixed (spaced_name name) rfl

theorem carries_names (list : List String) : Carries dialect table [] (names list) :=
  .ofFixed (spaced_names list) (boundValues_names list)

theorem Carries.append (first : Carries dialect table operands before)
    (second : Carries dialect table others after) (apart : Shut dialect before ∨ Breaks after) :
    Carries dialect table (operands ++ others) (before ++ after) where
  spaced := first.spaced.append second.spaced apart
  bound := by
    rw [boundValues_append]
    exact List.rel_append first.bound second.bound

/-- A clause behind others may be missing. -/
theorem Carries.clause (first : Carries dialect table operands before)
    (second : Carries dialect table others after) (apart : after = [] ∨ Breaks after) :
    Carries dialect table (operands ++ others) (before ++ after) := by
  rcases apart with rfl | breaks
  · obtain rfl : others = [] := List.forall₂_nil_right_iff.mp second.bound
    rwa [List.append_nil, List.append_nil]
  · exact first.append second (.inr breaks)

theorem Carries.around {words : String} (parting : partingWords dialect words = true)
    (first : Carries dialect table operands before) (second : Carries dialect table others after) :
    Carries dialect table (operands ++ others) (before ++ .words words :: after) where
  spaced := .around parting first.spaced second.spaced
  bound := by
    rw [boundValues_append, boundValues_words]
    exact List.rel_append first.bound second.bound

theorem Carries.separated {separator : String} (parting : partingWords dialect separator = true)
    {each : List (List (Nat × Value))} {groups : List (List Piece)}
    (carries : List.Forall₂ (Carries dialect table) each groups) :
    Carries dialect table each.flatten (Piece.separated separator groups) where
  spaced := .separated parting fun group listed => by
    obtain ⟨_, _, isCarried⟩ := counterpart_left carries listed
    exact isCarried.spaced
  bound := by
    rw [boundValues_separated]
    induction carries with
    | nil => exact .nil
    | cons first _ inductionHypothesis => exact List.rel_append first.bound inductionHypothesis

/-- Texts of which one may stand behind the other are spaced as one text. -/
theorem Spaced.joined {first second : String} (before : Spaced dialect [.words first])
    (after : Spaced dialect [.words second])
    (apart : Shut dialect [.words first] ∨ Breaks [.words second]) :
    Spaced dialect [.words (first ++ second)] := by
  have both : Spaced dialect ([.words first] ++ [.words second]) := before.append after apart
  have same (number : Nat) : text dialect number [.words (first ++ second)] =
      text dialect number ([.words first] ++ [.words second]) := by
    simp [text, Statement.assembleFrom]
  refine ⟨fun number => same number ▸ both.settled number, fun number => ?_, ?_⟩
  · rw [text_words]
    simp [numbered]
  · intro words listed token isRead
    obtain rfl : words = first ++ second := by simpa using listed
    have whole : text dialect 0 [.words (first ++ second)] = (first ++ second).toList :=
      text_words 0 _
    rw [← whole, same, both.read 0] at isRead
    rcases List.mem_append.mp isRead with early | late
    · exact both.fixed first (by simp) token early
    · exact both.fixed second (by simp) token (by simpa [numbered] using late)

theorem spaced_number (number : Nat) : Spaced dialect [.words (Error.number number)] := by
  have digits : ∀ char ∈ Numeral.decimal number, char.isDigit = true :=
    fun char listed => Nat.isDigit_of_mem_toDigits (by decide) (by decide) listed
  have read : Token.readFrom dialect .apart (Error.number number).toList =
      ([], .within .number (Numeral.decimal number)) := by
    rw [Error.number, String.toList_ofList]
    cases chars : Numeral.decimal number with
    | nil => exact absurd chars Nat.toDigits_ne_nil
    | cons first rest =>
      rw [chars] at digits
      obtain ⟨isDigit, areDigits⟩ := List.forall_mem_cons.mp digits
      have grown : Token.readFrom dialect (.within .number [first]) rest = _ :=
        Token.readFrom_within (fun _ => areDigits) [first]
      have opened : Token.start dialect first = ([], .within .number [first]) := by
        have apart : ∀ mark ∈ [' ', '\n', '\x22', '\x60', '\'', '@', '?'], first ≠ mark := by
          have plain : [' ', '\n', '\x22', '\x60', '\'', '@', '?'].all (!·.isDigit) = true := by
            decide
          rintro mark listed rfl
          have noDigit := List.all_eq_true.mp plain first listed
          rw [isDigit] at noDigit
          cases noDigit
        have notName : first ≠ dialect.nameMark := apart _ (by cases dialect <;> decide)
        have notParameter : first ≠ dialect.parameterMark := apart _ (by cases dialect <;> decide)
        simp [Token.start, Token.isBlank, apart ' ', apart '\n', apart '\'', notName, notParameter,
          isDigit]
      simp [Token.readFrom, Token.Place.step, opened, grown]
  refine spaced_words ?_
  simp [wholeWords, Token.ofText, read, Token.Place.settled, Token.Place.last, Token.Kind.token,
    Token.isParameter]

end Piece

namespace Comparison

/-- The operands of a comparison, for its column. -/
def operandsRead (comparison : Comparison) : List (Nat × Value) :=
  comparison.asked.map fun operand => (comparison.column, operand)

variable {dialect : Dialect} {table : Table} {comparison : Comparison} {column : Column}
  {pieces : List Piece}

/-- The operands of a membership are written one by one. -/
theorem boundValues_of_written {operands : List Value} {bound : List Piece}
    (isWritten : written dialect column operands = .ok bound) :
    List.Forall₂ (fun operand value => dialect.write column operand = .ok value) operands
      (Piece.boundValues bound) := by
  have each := mapM_eq_ok_iff.mp isWritten
  clear isWritten
  induction each with
  | nil => exact .nil
  | cons first _ inductionHypothesis =>
    obtain ⟨value, isValue, made⟩ := ok_of_bind first
    obtain rfl := Except.ok.inj made
    exact .cons isValue inductionHypothesis

/-- What a comparison binds are the written forms of the operands that its operator takes. -/
theorem boundValues_of_body {body : List Piece}
    (isBody : comparison.body dialect column = .ok body) :
    List.Forall₂ (fun operand value => dialect.write column operand = .ok value) comparison.asked
      (Piece.boundValues body) := by
  obtain ⟨position, operator, operands, negated⟩ := comparison
  cases operator with
  | isIn | isNotIn =>
    cases operands with
    | nil =>
      obtain rfl := Except.ok.inj isBody
      exact .nil
    | cons first others =>
      obtain ⟨bound, isWritten, made⟩ := ok_of_bind isBody
      obtain rfl := Except.ok.inj made
      have each := boundValues_of_written isWritten
      rwa [← Piece.boundValues_list] at each
  | isNull | isNotNull =>
    obtain rfl := Except.ok.inj isBody
    exact .nil
  | like =>
    obtain ⟨bound, isBound, made⟩ := ok_of_bind isBody
    obtain rfl := Except.ok.inj made
    exact .cons isBound .nil
  | _ =>
    obtain ⟨bound, isBound, made⟩ := ok_of_bind isBody
    obtain rfl := Except.ok.inj made
    exact .cons isBound .nil

/-- A comparison that has pieces can be written, and its pieces bind its operands. -/
theorem writes_of_pieces (isMade : comparison.pieces dialect table = .ok pieces) :
    comparison.Writable dialect table ∧
      List.Forall₂ (table.Writes dialect) comparison.operandsRead (Piece.boundValues pieces) := by
  unfold Comparison.pieces at isMade
  split at isMade
  · cases isMade
  · next column found =>
    obtain ⟨body, isBody, made⟩ := ok_of_bind isMade
    obtain rfl := Except.ok.inj made
    have bound := boundValues_of_body isBody
    refine ⟨⟨column, found, fun operand listed => ?_⟩, ?_⟩
    · obtain ⟨value, _, isWritten⟩ := counterpart_right bound listed
      exact ⟨value, isWritten⟩
    · have same : Piece.boundValues (if comparison.negated = true then
          .words "NOT (" :: body ++ [.words ")"] else body) = Piece.boundValues body := by
        split <;> simp
      rw [same, operandsRead, List.forall₂_map_left_iff]
      exact bound.imp fun operand value isWritten => ⟨column, found, isWritten⟩

end Comparison

namespace Condition

variable {dialect : Dialect} {table : Table}

/-- The operands in a condition, from left to right. -/
def operandsRead (condition : Condition) : List (Nat × Value) :=
  condition.comparisons.flatMap Comparison.operandsRead

mutual

/-- A condition that has pieces can be written, and its pieces bind its operands. -/
theorem writes_of_pieces (condition : Condition) {pieces : List Piece}
    (isMade : condition.pieces dialect table = .ok pieces) :
    (∀ comparison ∈ condition.comparisons, comparison.Writable dialect table) ∧
      List.Forall₂ (table.Writes dialect) condition.operandsRead (Piece.boundValues pieces) := by
  match condition with
  | .comparison atom =>
    simp only [Condition.pieces] at isMade
    obtain ⟨writable, bound⟩ := Comparison.writes_of_pieces isMade
    simpa [comparisons, operandsRead] using ⟨writable, bound⟩
  | .literal holds =>
    simp only [Condition.pieces] at isMade
    obtain rfl := Except.ok.inj isMade
    simp [comparisons, operandsRead, Piece.truth]
  | .group connective negated members =>
    simp only [Condition.pieces] at isMade
    obtain ⟨written, isWritten, made⟩ := ok_of_bind isMade
    obtain rfl := Except.ok.inj made
    obtain ⟨writable, bound⟩ := writes_of_piecesOfAll members isWritten
    rw [Piece.boundValues_enclose]
    exact ⟨by simpa only [comparisons] using writable, by
      simpa only [operandsRead, comparisons] using bound⟩

/-- So can several conditions, and their pieces bind their operands. -/
theorem writes_of_piecesOfAll (conditions : List Condition) {written : List (List Piece)}
    (isMade : piecesOfAll dialect table conditions = .ok written) :
    (∀ comparison ∈ comparisonsOfAll conditions, comparison.Writable dialect table) ∧
      List.Forall₂ (table.Writes dialect)
        ((comparisonsOfAll conditions).flatMap Comparison.operandsRead)
        (written.flatMap Piece.boundValues) := by
  match conditions with
  | [] =>
    simp only [piecesOfAll] at isMade
    obtain rfl := Except.ok.inj isMade
    simp [comparisonsOfAll]
  | first :: others =>
    simp only [piecesOfAll] at isMade
    obtain ⟨pieces, isFirst, further⟩ := ok_of_bind isMade
    obtain ⟨rest, areOthers, made⟩ := ok_of_bind further
    obtain rfl := Except.ok.inj made
    obtain ⟨writableFirst, boundFirst⟩ := writes_of_pieces first isFirst
    obtain ⟨writableOthers, boundOthers⟩ := writes_of_piecesOfAll others areOthers
    simp only [comparisonsOfAll, List.flatMap_append, List.flatMap_cons]
    refine ⟨fun comparison listed => ?_, List.rel_append boundFirst boundOthers⟩
    exact (List.mem_append.mp listed).elim (writableFirst comparison) (writableOthers comparison)

end

end Condition

/-- The pieces of a filter carry its operands. -/
theorem Filter.carries_pieces {dialect : Dialect} {table : Table} {filter : Filter}
    {pieces : List Piece} (isMade : filter.pieces dialect table = .ok pieces) :
    Piece.Carries dialect table filter.toCondition.operandsRead pieces := by
  obtain ⟨writable, bound⟩ := Condition.writes_of_pieces filter.toCondition isMade
  obtain ⟨same, isSame, reads⟩ := Condition.reads_pieces filter.toCondition writable
  obtain rfl := Except.ok.inj (isMade.symm.trans isSame)
  exact ⟨reads.spaced, bound⟩

namespace Query

variable {dialect : Dialect} {query : Query} {pieces : List Piece}

/-- The operands of a query are those of its filter. -/
def operandsRead (query : Query) : List (Nat × Value) :=
  match query.filter with
  | none => []
  | some filter => filter.toCondition.operandsRead

theorem carries_filterPieces (isMade : query.filterPieces dialect = .ok pieces) :
    Piece.Carries dialect query.table query.operandsRead pieces ∧
      (pieces = [] ∨ Piece.Breaks pieces) := by
  have opening : Piece.Carries dialect query.table [] [.words " WHERE "] :=
    Piece.carries_words (by cases dialect <;> decide)
  have apart : Piece.Shut dialect [.words " WHERE "] :=
    Piece.shut_words (by cases dialect <;> decide)
  obtain ⟨table, projection, filter, order, limit, offset⟩ := query
  cases filter with
  | none =>
    obtain rfl := Except.ok.inj isMade
    exact ⟨.ofFixed .nil rfl, .inl rfl⟩
  | some filter =>
    obtain ⟨connective, negated, members⟩ := filter
    cases members with
    | nil =>
      obtain rfl := Except.ok.inj isMade
      refine ⟨.ofFixed .nil rfl, .inl rfl⟩
    | cons first others =>
      obtain ⟨condition, isCondition, made⟩ := ok_of_bind isMade
      obtain rfl := Except.ok.inj made
      exact ⟨opening.append (Filter.carries_pieces isCondition) (.inl apart), .inr rfl⟩

theorem carries_projectionPieces (isMade : query.projectionPieces = .ok pieces) {table : Table} :
    Piece.Carries dialect table [] pieces := by
  obtain ⟨_, projection, filter, order, limit, offset⟩ := query
  cases projection with
  | all =>
    obtain rfl := Except.ok.inj isMade
    exact Piece.carries_names _
  | keys =>
    unfold projectionPieces at isMade
    dsimp only at isMade
    split at isMade
    · obtain rfl := Except.ok.inj isMade
      exact Piece.carries_names _
    · cases isMade
  | count =>
    obtain rfl := Except.ok.inj isMade
    exact Piece.carries_words (by cases dialect <;> decide)

theorem carries_orderTerm (dialect : Dialect) (query : Query) (term : Nat × Bool) :
    Piece.Carries dialect query.table [] (query.orderTerm term) := by
  have descending : Piece.Spaced dialect [.words " DESC"] :=
    Piece.spaced_words (by cases dialect <;> decide)
  obtain ⟨position, isDescending⟩ := term
  unfold orderTerm Piece.columnNames
  cases isDescending with
  | false => exact .ofFixed (by simpa using Piece.spaced_names _) (by simp)
  | true => exact .ofFixed ((Piece.spaced_names _).append descending (.inr rfl)) (by simp)

theorem carries_orderPieces (dialect : Dialect) (query : Query) :
    Piece.Carries dialect query.table [] query.orderPieces ∧
      (query.orderPieces = [] ∨ Piece.Breaks query.orderPieces) := by
  unfold orderPieces
  split
  · exact ⟨.ofFixed .nil rfl, .inl rfl⟩
  · have opening : Piece.Carries dialect query.table [] [.words " ORDER BY "] :=
      Piece.carries_words (by cases dialect <;> decide)
    have each : List.Forall₂ (Piece.Carries dialect query.table)
        (query.order.map fun _ => []) (query.order.map query.orderTerm) := by
      rw [List.forall₂_map_left_iff, List.forall₂_map_right_iff]
      exact List.forall₂_same.mpr fun term _ => carries_orderTerm dialect query term
    have terms := Piece.Carries.separated Piece.partingWords_comma each
    have apart : Piece.Shut dialect [.words " ORDER BY "] :=
      Piece.shut_words (by cases dialect <;> decide)
    exact ⟨by simpa using opening.append terms (.inl apart), .inr rfl⟩

/-- A limit or an offset, of which the number stands behind its word. -/
theorem spaced_bounded {word : String} (whole : Piece.wholeWords dialect word = true)
    (apart : (Token.readFrom dialect .apart word.toList).2 = .apart) (number : Nat) :
    Piece.Spaced dialect [.words (word ++ Error.number number)] :=
  (Piece.spaced_words whole).joined (Piece.spaced_number number) (.inl (Piece.shut_words apart))

theorem carries_pagePieces (dialect : Dialect) (query : Query) :
    Piece.Carries dialect query.table [] (query.pagePieces dialect) ∧
      (query.pagePieces dialect = [] ∨ Piece.Breaks (query.pagePieces dialect)) := by
  have limited (limit : Nat) :
      Piece.Spaced dialect [.words (" " ++ ("LIMIT " ++ Error.number limit))] :=
    String.append_assoc ▸
      spaced_bounded (by cases dialect <;> decide) (by cases dialect <;> decide) limit
  have offset (offset : Nat) : Piece.Spaced dialect [.words (" OFFSET " ++ Error.number offset)] :=
    spaced_bounded (by cases dialect <;> decide) (by cases dialect <;> decide) offset
  have unlimited : Piece.Spaced dialect [.words (" " ++ ("LIMIT " ++ dialect.noLimit))] :=
    Piece.spaced_words (by cases dialect <;> decide)
  have breaksOffset (number : Nat) : Piece.Breaks [.words (" OFFSET " ++ Error.number number)] := by
    simp [Piece.Breaks, Token.isBreak]
  have breaks (clause : String) : Piece.Breaks [.words (" " ++ clause)] := by
    simp [Piece.Breaks, Token.isBreak]
  have clause {text : String} (spaced : Piece.Spaced dialect [.words (" " ++ text)]) :
      Piece.Carries dialect query.table [] [.words (" " ++ text)] ∧
        ([Piece.words (" " ++ text)] = [] ∨ Piece.Breaks [.words (" " ++ text)]) :=
    ⟨.ofFixed spaced rfl, .inr (breaks text)⟩
  obtain ⟨table, projection, filter, order, limit, start⟩ := query
  unfold pagePieces
  split
  · exact ⟨.ofFixed .nil rfl, .inl rfl⟩
  · cases limit with
    | none =>
      cases start with
      | none => exact ⟨.ofFixed .nil rfl, .inl rfl⟩
      | some start =>
        have spaced := unlimited.joined (offset start) (.inr (breaksOffset start))
        exact clause (by simpa only [String.append_assoc] using spaced)
    | some limit =>
      cases start with
      | none => exact clause (limited limit)
      | some start =>
        have spaced := (limited limit).joined (offset start) (.inr (breaksOffset start))
        exact clause (by simpa only [String.append_assoc] using spaced)

theorem carries_pieces (isMade : query.pieces dialect = .ok pieces) :
    Piece.Carries dialect query.table query.operandsRead pieces := by
  obtain ⟨returned, isReturned, further⟩ := ok_of_bind isMade
  obtain ⟨filter, isFilter, made⟩ := ok_of_bind further
  obtain rfl := Except.ok.inj made
  obtain ⟨filtered, filterApart⟩ := carries_filterPieces isFilter
  obtain ⟨ordered, orderApart⟩ := carries_orderPieces dialect query
  obtain ⟨paged, pageApart⟩ := carries_pagePieces dialect query
  have select : Piece.Carries dialect query.table [] [.words "SELECT "] :=
    Piece.carries_words (by cases dialect <;> decide)
  have opening := select.append (carries_projectionPieces isReturned)
    (.inl (Piece.shut_words (by cases dialect <;> decide)))
  have parting : Piece.partingWords dialect " FROM " = true := by cases dialect <;> decide
  have onTable := (Piece.carries_name query.table.name).clause filtered filterApart
  have whole := ((opening.around parting onTable).clause ordered orderApart).clause paged pageApart
  simpa using whole

end Query

/-- The operands of an insertion, in the order of the columns: the values of a row but the nulls
in columns that the engine numbers. -/
def Table.operandsInserted (table : Table) (values : List Value) : List (Nat × Value) :=
  ((table.columns.zip values).zipIdx.filter fun ((column, value), _) =>
    !(column.autoIncrement && value.isNull)).map fun ((_, value), position) => (position, value)

namespace Statement

variable {dialect : Dialect} {table : Table} {pieces : List Piece}

/-- The columns that an insertion binds have the written forms of its operands. -/
theorem writes_of_boundColumns {values : List Value} {columns : List (Column × Value)}
    (areBound : boundColumns dialect table values = .ok columns) :
    List.Forall₂ (table.Writes dialect) (table.operandsInserted values)
      (columns.map Prod.snd) := by
  have each := mapM_eq_ok_iff.mp areBound
  have numbered : (table.columns.zip values).filter (fun place =>
      !(place.1.autoIncrement && place.2.isNull)) =
        ((table.columns.zip values).zipIdx.filter fun ((column, value), _) =>
          !(column.autoIncrement && value.isNull)).map Prod.fst := by
    conv_lhs => rw [← List.zipIdx_map_fst 0 (table.columns.zip values), List.filter_map]
    rfl
  rw [numbered, List.forall₂_map_left_iff] at each
  unfold Table.operandsInserted
  rw [List.forall₂_map_left_iff, List.forall₂_map_right_iff]
  have placed : ∀ item ∈ (table.columns.zip values).zipIdx.filter (fun ((column, value), _) =>
      !(column.autoIncrement && value.isNull)), table.columns[item.2]? = some item.1.1 := by
    rintro ⟨⟨column, value⟩, position⟩ listed
    have found := List.mem_zipIdx_iff_getElem?.mp (List.mem_of_mem_filter listed)
    exact (List.getElem?_zip_eq_some.mp found).1
  refine ((List.forall₂_and_left _ _).mpr ⟨placed, each⟩).imp ?_
  rintro ⟨⟨column, value⟩, position⟩ ⟨_, bound⟩ ⟨found, made⟩
  obtain ⟨written, isWritten, same⟩ := ok_of_bind made
  obtain ⟨rfl, rfl⟩ := Prod.mk.inj (Except.ok.inj same)
  exact ⟨column, found, isWritten⟩

theorem carries_insertPieces {values : List Value}
    (isMade : insertPieces dialect table values = .ok pieces) :
    Piece.Carries dialect table (table.operandsInserted values) pieces := by
  obtain ⟨columns, areBound, made⟩ := ok_of_bind isMade
  have written := writes_of_boundColumns areBound
  have insert : Piece.Carries dialect table [] [.words "INSERT INTO "] :=
    Piece.carries_words (by cases dialect <;> decide)
  have opening := insert.append (Piece.carries_name table.name)
    (.inl (Piece.shut_words (by cases dialect <;> decide)))
  split at made
  · next noColumns =>
    obtain rfl := List.isEmpty_iff.mp noColumns
    obtain rfl := Except.ok.inj made
    rw [List.forall₂_nil_right_iff.mp written]
    have unnamed : Piece.Carries dialect table [] [.words " DEFAULT VALUES"] :=
      Piece.carries_words (by cases dialect <;> decide)
    exact opening.append unnamed (.inr rfl)
  · obtain rfl := Except.ok.inj made
    have values : Piece.Carries dialect table (table.operandsInserted values)
        (Piece.separated ", " (columns.map fun column => [.bound column.2])) := by
      refine ⟨.separated Piece.partingWords_comma
        (List.forall_mem_map.mpr fun column _ => Piece.spaced_bound column.2), ?_⟩
      rw [Piece.boundValues_separated, List.flatMap_map]
      exact List.map_eq_flatMap ▸ written
    have parting : Piece.partingWords dialect " (" = true := by cases dialect <;> decide
    have partingValues : Piece.partingWords dialect ") VALUES (" = true := by
      cases dialect <;> decide
    have listed : Piece.Carries dialect table []
        (Piece.names (columns.map fun column => column.1.name)) := Piece.carries_names _
    have closing : Piece.Carries dialect table [] [.words ")"] :=
      Piece.carries_words (by cases dialect <;> decide)
    have whole := ((opening.around parting listed).around partingValues values).append closing
      (.inr rfl)
    simpa using whole

/-- The filter of a row by its keys carries the keys in key order. -/
theorem carries_rowFilter {keys : Keys} {filter : Filter}
    (isFilter : rowFilter table keys = .ok filter)
    (isMade : filter.pieces dialect table = .ok pieces) :
    Piece.Carries dialect table (table.primaryKeys.zip keys.values) pieces := by
  unfold rowFilter at isFilter
  split at isFilter
  · cases isFilter
  · obtain rfl := Except.ok.inj isFilter
    have carries := Filter.carries_pieces isMade
    have operands : (Filter.ofKeys table [keys]).toCondition.operandsRead =
        table.primaryKeys.zip keys.values := by
      have read (pair : Nat × Value) : Comparison.operandsRead
          { column := pair.1, operator := .equal, operands := [pair.2] } = [pair] := rfl
      simp [Filter.toCondition, Filter.ofKeys, Filter.equalities, Condition.operandsRead,
        Condition.comparisons, Condition.comparisonsOfAll_eq_flatMap, List.flatMap_map,
        List.flatMap_assoc, read]
    exact operands ▸ carries

theorem carries_assignment {change : Nat × Value}
    (isMade : assignment dialect table change = .ok pieces) :
    Piece.Carries dialect table [change] pieces := by
  unfold assignment at isMade
  split at isMade
  · cases isMade
  · next column found =>
    obtain ⟨bound, isBound, made⟩ := ok_of_bind isMade
    obtain rfl := Except.ok.inj made
    have parting : Piece.partingWords dialect " = " = true := by cases dialect <;> decide
    exact ⟨.around parting (Piece.spaced_name _) (Piece.spaced_bound _),
      .cons ⟨column, found, isBound⟩ .nil⟩

theorem carries_updatePieces {keys : Keys} {changes : List (Nat × Value)}
    (isMade : updatePieces dialect table keys changes = .ok pieces) :
    Piece.Carries dialect table (changes ++ table.primaryKeys.zip keys.values) pieces := by
  unfold updatePieces at isMade
  split at isMade
  · cases isMade
  · obtain ⟨assignments, areAssigned, further⟩ := ok_of_bind isMade
    obtain ⟨filter, isFilter, further⟩ := ok_of_bind further
    obtain ⟨condition, isCondition, made⟩ := ok_of_bind further
    obtain rfl := Except.ok.inj made
    have assigned : Piece.Carries dialect table changes (Piece.separated ", " assignments) := by
      have each := (mapM_eq_ok_iff.mp areAssigned).imp fun _ _ => carries_assignment
      rw [← List.forall₂_map_left_iff (f := fun change => [change])] at each
      have together := Piece.Carries.separated Piece.partingWords_comma each
      rwa [← List.flatMap_def, List.flatMap_singleton'] at together
    have opening : Piece.Carries dialect table [] [.words "UPDATE "] :=
      Piece.carries_words (by cases dialect <;> decide)
    have start := opening.append (Piece.carries_name table.name)
      (.inl (Piece.shut_words (by cases dialect <;> decide)))
    have partingSet : Piece.partingWords dialect " SET " = true := by cases dialect <;> decide
    have parting : Piece.partingWords dialect " WHERE " = true := by cases dialect <;> decide
    have named := carries_rowFilter isFilter isCondition
    have whole := (start.around partingSet assigned).around parting named
    simpa using whole

theorem carries_deletePieces {keys : Keys} (isMade : deletePieces dialect table keys = .ok pieces) :
    Piece.Carries dialect table (table.primaryKeys.zip keys.values) pieces := by
  obtain ⟨filter, isFilter, further⟩ := ok_of_bind isMade
  obtain ⟨condition, isCondition, made⟩ := ok_of_bind further
  obtain rfl := Except.ok.inj made
  have opening : Piece.Carries dialect table [] [.words "DELETE FROM "] :=
    Piece.carries_words (by cases dialect <;> decide)
  have start := opening.append (Piece.carries_name table.name)
    (.inl (Piece.shut_words (by cases dialect <;> decide)))
  have parting : Piece.partingWords dialect " WHERE " = true := by cases dialect <;> decide
  exact start.around parting (carries_rowFilter isFilter isCondition)

end Statement

/-- The statements that are written on the rows of a table, and the filters by themselves, each
with the operands that it is written for, in the order in which they are read. -/
inductive Statement.MadeFor (dialect : Dialect) (table : Table) :
    Statement → List (Nat × Value) → Prop where
  | query {query : Query} {statement : Statement} (onTable : query.table = table)
    (isWritten : Writing.run (Writing.query dialect query) = .ok statement) :
    MadeFor dialect table statement query.operandsRead
  | filter {filter : Filter} {statement : Statement}
    (isWritten : Writing.run (Writing.filter dialect table filter) = .ok statement) :
    MadeFor dialect table statement filter.toCondition.operandsRead
  | insert {values : List Value} {statement : Statement}
    (isWritten : Writing.run (Writing.insertion dialect table values) = .ok statement) :
    MadeFor dialect table statement (table.operandsInserted values)
  | update {keys : Keys} {changes : List (Nat × Value)} {statement : Statement}
    (isWritten : Writing.run (Writing.update dialect table keys changes) = .ok statement) :
    MadeFor dialect table statement (changes ++ table.primaryKeys.zip keys.values)
  | delete {keys : Keys} {statement : Statement}
    (isWritten : Writing.run (Writing.deletion dialect table keys) = .ok statement) :
    MadeFor dialect table statement (table.primaryKeys.zip keys.values)

namespace Statement

variable {dialect : Dialect} {table : Table} {operands : List (Nat × Value)}

/-- What the parameters of a statement are if the pieces that make it up carry some operands. -/
theorem parameters_of_carries {made : Except Error (List Piece)} {statement : Statement}
    (isMade : (do return assemble dialect (← made)) = .ok statement)
    (carries : ∀ pieces, made = .ok pieces → Piece.Carries dialect table operands pieces) :
    statement.marks dialect = (List.range statement.parameters.length).map parameterName ∧
      statement.parameters.map Prod.fst =
        (List.range statement.parameters.length).map parameterName ∧
      List.Forall₂ (table.Writes dialect) operands (statement.parameters.map Prod.snd) := by
  obtain ⟨pieces, arePieces, isAssembled⟩ := ok_of_bind isMade
  obtain rfl := Except.ok.inj isAssembled
  have carried := carries pieces arePieces
  have parameters : (assemble dialect pieces).parameters = _ :=
    Piece.parameters_assembleFrom 0 pieces
  have marks := Piece.marks_numbered carried.spaced.fixed 0
  rw [← carried.spaced.read 0] at marks
  have numbers :
      ((Piece.boundValues pieces).zipIdx 0).map (fun (_, number) => parameterName number) =
        (List.range (Piece.boundValues pieces).length).map parameterName := by
    rw [List.range_eq_range', ← List.zipIdx_map_snd 0 (Piece.boundValues pieces), List.map_map]
    rfl
  have count : (assemble dialect pieces).parameters.length = (Piece.boundValues pieces).length := by
    simp [parameters]
  refine ⟨?_, ?_, ?_⟩
  · rw [count, ← numbers]
    exact marks
  · rw [count, ← numbers, parameters, List.map_map]
    rfl
  · have values : (assemble dialect pieces).parameters.map Prod.snd = Piece.boundValues pieces := by
      rw [parameters, List.map_map]
      exact List.zipIdx_map_fst 0 _
    rw [values]
    exact carried.bound

/-- The marks in the text of a statement are those of its parameters, each once and in order,
which are numbered from zero and hold the bound forms of its operands, in the order in which
these are read. -/
theorem MadeFor.parameters_in_order {statement : Statement}
    (made : statement.MadeFor dialect table operands) :
    statement.marks dialect = (List.range statement.parameters.length).map parameterName ∧
      statement.parameters.map Prod.fst =
        (List.range statement.parameters.length).map parameterName ∧
      List.Forall₂ (table.Writes dialect) operands (statement.parameters.map Prod.snd) := by
  cases made with
  | query onTable isWritten =>
    rw [Writing.run_query] at isWritten
    exact parameters_of_carries isWritten fun _ arePieces => onTable ▸ Query.carries_pieces arePieces
  | filter isWritten =>
    rw [Writing.run_filter] at isWritten
    exact parameters_of_carries isWritten fun _ => Filter.carries_pieces
  | insert isWritten =>
    rw [Writing.run_insertion] at isWritten
    exact parameters_of_carries isWritten fun _ => carries_insertPieces
  | update isWritten =>
    rw [Writing.run_update] at isWritten
    exact parameters_of_carries isWritten fun _ => carries_updatePieces
  | delete isWritten =>
    rw [Writing.run_deletion] at isWritten
    exact parameters_of_carries isWritten fun _ => carries_deletePieces

/-- The parameters of a page of items under nested groups, and of an update of a key column. -/
theorem parameters_in_order_nested :
    ∃ found updated,
      Writing.run (Writing.query .sqlite
        { table := sortedItems, projection := .all, filter := some .nested, order := [(1, true)]
          offset := some 30 }) = .ok found ∧
      found.text = "SELECT \"id\", \"grp\" FROM \"items\" WHERE NOT (1=0 OR " ++
        "NOT (\"grp\" IN (@p0, @p1)) OR NOT 1=1 OR (1=0 OR \"id\" < @p2)) " ++
        "ORDER BY \"grp\" DESC LIMIT -1 OFFSET 30" ∧
      found.marks .sqlite = ["p0", "p1", "p2"] ∧
      List.Forall₂ (sortedItems.Writes .sqlite) [(1, .int 1), (1, .int 2), (0, .int 7)]
        (found.parameters.map Prod.snd) ∧
      Writing.run (Writing.update .sqlite sortedItems ⟨[.int 4]⟩ [(1, .null), (0, .int 5)]) =
        .ok updated ∧
      updated.text = "UPDATE \"items\" SET \"grp\" = @p0, \"id\" = @p1 WHERE \"id\" = @p2" ∧
      updated.marks .sqlite = ["p0", "p1", "p2"] ∧
      List.Forall₂ (sortedItems.Writes .sqlite) [(1, .null), (0, .int 5), (0, .int 4)]
        (updated.parameters.map Prod.snd) := by
  obtain ⟨found, isFound⟩ : ∃ found,
      Writing.run (Writing.query .sqlite
        { table := sortedItems, projection := .all, filter := some .nested, order := [(1, true)]
          offset := some 30 }) = .ok found := ⟨_, rfl⟩
  obtain ⟨updated, isUpdated⟩ : ∃ updated,
      Writing.run (Writing.update .sqlite sortedItems ⟨[.int 4]⟩ [(1, .null), (0, .int 5)]) =
        .ok updated :=
    ⟨_, rfl⟩
  obtain ⟨marksFound, _, boundFound⟩ := (MadeFor.query rfl isFound).parameters_in_order
  obtain ⟨marksUpdated, _, boundUpdated⟩ := (MadeFor.update isUpdated).parameters_in_order
  refine ⟨found, updated, isFound, ?_, ?_, boundFound, isUpdated, ?_, ?_, boundUpdated⟩
  · cases isFound
    decide +kernel
  · rw [marksFound]
    cases isFound
    decide
  · cases isUpdated
    decide
  · rw [marksUpdated]
    cases isUpdated
    decide

end Statement

end RelationalAccess
