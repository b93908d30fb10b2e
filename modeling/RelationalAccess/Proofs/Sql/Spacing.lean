import RelationalAccess.Proofs.Sql.Token
import RelationalAccess.Sql.Statement

/-!
The text of a statement is read piece by piece, if its pieces are spaced: between any
two that could run together, one ends a token or the other one begins with a character that does.
A parameter is then read as the value bound to it.
-/

namespace RelationalAccess

theorem Statement.parameterName_injective {number other : Nat}
    (same : parameterName number = parameterName other) : number = other := by
  have digits : Nat.toDigits 10 number = Nat.toDigits 10 other := by
    have chars := congrArg String.toList same
    simpa [parameterName, Error.number, Numeral.decimal] using chars
  have numbers := congrArg (Nat.ofDigitChars 10 · 0) digits
  simpa [Nat.ofDigitChars_toDigits] using numbers

namespace Token

def isParameter : Token → Bool
  | .parameter _ => true
  | _ => false

/-- A parameter as the value that is bound to it. -/
def resolve (parameters : List (String × Value)) : Token → Token
  | .parameter called =>
    match parameters.lookup called with
    | some value => .bound value
    | none => .parameter called
  | other => other

end Token

/-- The tokens of a statement, its parameters being read as the values bound to them. -/
def Statement.tokens (dialect : Dialect) (statement : Statement) : List Token :=
  (Token.ofText dialect statement.text.toList).map (.resolve statement.parameters)

namespace Piece

variable {dialect : Dialect}

/-- The tokens of a piece. -/
def tokens (dialect : Dialect) : Piece → List Token
  | .words said => Token.ofText dialect said.toList
  | .name called => [.name called]
  | .bound value => [.bound value]

/-- The tokens of pieces, the parameters being numbered from `first`. -/
def numbered (dialect : Dialect) (first : Nat) : List Piece → List Token
  | [] => []
  | .words said :: rest => Token.ofText dialect said.toList ++ numbered dialect first rest
  | .name called :: rest => .name called :: numbered dialect first rest
  | .bound _ :: rest =>
    .parameter (Statement.parameterName first) :: numbered dialect (first + 1) rest

/-- The text of pieces, the parameters being numbered from `first`. -/
def text (dialect : Dialect) (first : Nat) (pieces : List Piece) : List Char :=
  (Statement.assembleFrom dialect first pieces).text.toList

def parameterCount : List Piece → Nat
  | [] => 0
  | .bound _ :: rest => parameterCount rest + 1
  | _ :: rest => parameterCount rest

theorem assembleFrom_append (first : Nat) (before after : List Piece) :
    Statement.assembleFrom dialect first (before ++ after) =
      { text := (Statement.assembleFrom dialect first before).text ++
          (Statement.assembleFrom dialect (first + parameterCount before) after).text
        parameters := (Statement.assembleFrom dialect first before).parameters ++
          (Statement.assembleFrom dialect (first + parameterCount before) after).parameters } := by
  induction before generalizing first with
  | nil => simp [Statement.assembleFrom, parameterCount]
  | cons piece rest inductionHypothesis =>
    have renumbered : first + 1 + parameterCount rest = first + (parameterCount rest + 1) := by
      omega
    cases piece <;>
      simp [Statement.assembleFrom, parameterCount, inductionHypothesis, renumbered,
        String.append_assoc]

theorem length_parameters_assembleFrom (dialect : Dialect) (first : Nat) (pieces : List Piece) :
    (Statement.assembleFrom dialect first pieces).parameters.length = parameterCount pieces := by
  induction pieces generalizing first with
  | nil => rfl
  | cons piece rest inductionHypothesis =>
    cases piece <;> simp [Statement.assembleFrom, parameterCount, inductionHypothesis]

theorem text_append (first : Nat) (before after : List Piece) :
    text dialect first (before ++ after) =
      text dialect first before ++ text dialect (first + parameterCount before) after := by
  rw [text, assembleFrom_append, String.toList_append]
  rfl

theorem numbered_append (first : Nat) (before after : List Piece) :
    numbered dialect first (before ++ after) =
      numbered dialect first before ++ numbered dialect (first + parameterCount before) after := by
  induction before generalizing first with
  | nil => rfl
  | cons piece rest inductionHypothesis =>
    have renumbered : first + 1 + parameterCount rest = first + (parameterCount rest + 1) := by
      omega
    cases piece <;> simp [numbered, parameterCount, inductionHypothesis, renumbered]

/-- Pieces whose text is read piece by piece. -/
structure Spaced (dialect : Dialect) (pieces : List Piece) : Prop where
  settled : ∀ first,
    (Token.readFrom dialect .apart (text dialect first pieces)).2.settled = true
  read : ∀ first, Token.ofText dialect (text dialect first pieces) = numbered dialect first pieces
  fixed : ∀ words, .words words ∈ pieces →
    ∀ token ∈ Token.ofText dialect words.toList, token.isParameter = false

/-- Pieces whose text ends between tokens. -/
def Shut (dialect : Dialect) (pieces : List Piece) : Prop :=
  ∀ first, (Token.readFrom dialect .apart (text dialect first pieces)).2 = .apart

/-- Pieces whose text begins with the end of any token before them. -/
def Breaks : List Piece → Prop
  | .words said :: _ => said.toList.head?.any Token.isBreak = true
  | _ => False

theorem Breaks.head? {pieces : List Piece} (breaks : Breaks pieces) (first : Nat) :
    (text dialect first pieces).head?.any Token.isBreak = true := by
  cases pieces with
  | nil => cases breaks
  | cons piece rest =>
    cases piece with
    | words said =>
      have begins : text dialect first (.words said :: rest) =
          said.toList ++ text dialect first rest := by
        simp [text, Statement.assembleFrom]
      rw [begins]
      have first : said.toList.head?.any Token.isBreak = true := breaks
      cases chars : said.toList with
      | nil => simp [chars] at first
      | cons char others => simpa [chars] using first
    | name called => cases breaks
    | bound value => cases breaks

/-- The reading of pieces after others that end no later than they begin. -/
private theorem readFrom_after {before after : List Piece} (spaced : Spaced dialect before)
    (apart : Shut dialect before ∨ Breaks after) (first number : Nat) :
    let place := (Token.readFrom dialect .apart (text dialect first before)).2
    Token.readFrom dialect place (text dialect number after) =
      (place.last ++ (Token.readFrom dialect .apart (text dialect number after)).1,
        (Token.readFrom dialect .apart (text dialect number after)).2) := by
  intro place
  rcases apart with shut | breaks
  · have isApart : place = .apart := shut first
    rw [isApart]
    rfl
  · exact Token.readFrom_of_isBreak (spaced.settled first) (breaks.head? number)

theorem Spaced.append {before after : List Piece} (spaced : Spaced dialect before)
    (further : Spaced dialect after) (apart : Shut dialect before ∨ Breaks after) :
    Spaced dialect (before ++ after) where
  settled first := by
    rw [text_append, Token.readFrom_append, readFrom_after spaced apart]
    exact further.settled _
  read first := by
    rw [numbered_append, ← spaced.read, ← further.read, Token.ofText, text_append,
      Token.readFrom_append, readFrom_after spaced apart]
    simp [Token.ofText]
  fixed words listed := by
    rcases List.mem_append.mp listed with early | late
    · exact spaced.fixed words early
    · exact further.fixed words late

theorem Spaced.nil : Spaced dialect [] where
  settled _ := rfl
  read _ := rfl
  fixed _ listed := by cases listed

theorem spaced_name (name : String) : Spaced dialect [.name name] where
  settled first := by
    simp [text, Statement.assembleFrom, Token.readFrom_quote, Token.Place.settled]
  read first := by
    simp [text, Statement.assembleFrom, Token.ofText, Token.readFrom_quote, Token.Place.last,
      Token.Quote.token, numbered]
  fixed words listed := by simp at listed

theorem readFrom_parameter (name : String)
    (plain : ∀ char ∈ name.toList, Token.isWordChar char = true) :
    Token.readFrom dialect .apart (dialect.parameter name).toList =
      ([], .within .parameter name.toList) := by
  have opened : Token.start dialect dialect.parameterMark = ([], .within .parameter []) := by
    cases dialect <;> rfl
  have grown : Token.readFrom dialect (.within .parameter []) name.toList = _ :=
    Token.readFrom_within (fun _ => plain) []
  simp [Dialect.parameter, Token.readFrom, Token.Place.step, opened, grown]

theorem isWordChar_of_mem_parameterName {number : Nat} {char : Char}
    (listed : char ∈ (Statement.parameterName number).toList) : Token.isWordChar char = true := by
  have cases : char = 'p' ∨ char ∈ Nat.toDigits 10 number := by
    simpa [Statement.parameterName, Error.number, Numeral.decimal] using listed
  rcases cases with rfl | isDigit
  · rfl
  · have digit := Nat.isDigit_of_mem_toDigits (by decide) (by decide) isDigit
    simp [Token.isWordChar, Char.isAlphanum, digit]

theorem spaced_bound (value : Value) : Spaced dialect [.bound value] where
  settled first := by
    have read : Token.readFrom dialect .apart
        (dialect.parameter (Statement.parameterName first)).toList = _ :=
      readFrom_parameter _ fun _ => isWordChar_of_mem_parameterName
    simp [text, Statement.assembleFrom, read, Token.Place.settled]
  read first := by
    have read : Token.readFrom dialect .apart
        (dialect.parameter (Statement.parameterName first)).toList = _ :=
      readFrom_parameter _ fun _ => isWordChar_of_mem_parameterName
    simp [text, Statement.assembleFrom, Token.ofText, read, Token.Place.last, Token.Kind.token,
      numbered]
  fixed words listed := by simp at listed

/-- Words that end no quotes later and name no parameter. -/
def wholeWords (dialect : Dialect) (words : String) : Bool :=
  (Token.readFrom dialect .apart words.toList).2.settled &&
    (Token.ofText dialect words.toList).all (!·.isParameter)

theorem text_words (first : Nat) (words : String) :
    text dialect first [.words words] = words.toList := by
  simp [text, Statement.assembleFrom]

theorem spaced_words {words : String} (whole : wholeWords dialect words = true) :
    Spaced dialect [.words words] := by
  obtain ⟨settled, fixed⟩ := Bool.and_eq_true_iff.mp whole
  refine ⟨fun first => ?_, fun first => ?_, fun other listed token isRead => ?_⟩
  · rw [text_words]
    exact settled
  · rw [text_words]
    simp [numbered]
  · obtain rfl : other = words := by simpa using listed
    simpa using List.all_eq_true.mp fixed token isRead

theorem shut_words {words : String}
    (apart : (Token.readFrom dialect .apart words.toList).2 = .apart) :
    Shut dialect [.words words] := by
  intro first
  rw [text_words]
  exact apart

/-- Words that part what stands before them from what stands behind them. -/
def partingWords (dialect : Dialect) (words : String) : Bool :=
  wholeWords dialect words && words.toList.head?.any Token.isBreak &&
    decide ((Token.readFrom dialect .apart words.toList).2 = .apart)

/-- Spaced pieces with words between them that part them. -/
theorem Spaced.around {words : String} (parting : partingWords dialect words = true)
    {before after : List Piece} (first : Spaced dialect before) (second : Spaced dialect after) :
    Spaced dialect (before ++ .words words :: after) := by
  obtain ⟨⟨whole, breaks⟩, apart⟩ := by simpa only [partingWords, Bool.and_eq_true] using parting
  have later : Spaced dialect ([.words words] ++ after) :=
    (spaced_words whole).append second (.inl (shut_words (of_decide_eq_true apart)))
  exact first.append later (.inr breaks)

theorem Spaced.separated {separator : String} (parting : partingWords dialect separator = true)
    {groups : List (List Piece)} (each : ∀ group ∈ groups, Spaced dialect group) :
    Spaced dialect (Piece.separated separator groups) := by
  fun_induction Piece.separated separator groups with
  | case1 => exact .nil
  | case2 only => exact each only List.mem_cons_self
  | case3 first others _ inductionHypothesis =>
    have later := inductionHypothesis fun group listed => each group (List.mem_cons_of_mem _ listed)
    exact .around parting (each first List.mem_cons_self) later

theorem resolve_of_not_isParameter {token : Token} (fixed : token.isParameter = false)
    (parameters : List (String × Value)) : token.resolve parameters = token := by
  cases token <;> first | rfl | cases fixed

/-- Every parameter of pieces is read as the value that is bound to it. Parameters with
smaller numbers do not matter. -/
theorem numbered_resolved {pieces : List Piece}
    (fixed : ∀ words, .words words ∈ pieces →
      ∀ token ∈ Token.ofText dialect words.toList, token.isParameter = false)
    (first : Nat) (earlier : List (String × Value))
    (smaller : ∀ entry ∈ earlier, ∃ number < first, entry.1 = Statement.parameterName number) :
    (numbered dialect first pieces).map
        (.resolve (earlier ++ (Statement.assembleFrom dialect first pieces).parameters)) =
      pieces.flatMap (tokens dialect) := by
  induction pieces generalizing first earlier with
  | nil => simp [numbered]
  | cons piece rest inductionHypothesis =>
    have fixedRest := fun words listed => fixed words (List.mem_cons_of_mem _ listed)
    cases piece with
    | words text =>
      have further := inductionHypothesis fixedRest first earlier smaller
      have plain : (Token.ofText dialect text.toList).map (.resolve
          (earlier ++ (Statement.assembleFrom dialect first rest).parameters)) =
            Token.ofText dialect text.toList :=
        (List.map_congr_left fun token isRead =>
          resolve_of_not_isParameter (fixed text List.mem_cons_self token isRead) _).trans
            (List.map_id _)
      rw [numbered, List.map_append, Statement.assembleFrom, plain, further]
      rfl
    | name called =>
      have further := inductionHypothesis fixedRest first earlier smaller
      rw [numbered, List.map_cons, Statement.assembleFrom, further]
      rfl
    | bound value =>
      -- No earlier parameter has this one's name, so its own value is the one that is found.
      let entry := (Statement.parameterName first, value)
      have new : earlier.lookup entry.1 = none := by
        refine List.lookup_eq_none_iff.mpr fun other listed => ?_
        obtain ⟨number, below, named⟩ := smaller other listed
        have differs : entry.1 ≠ other.1 := fun same =>
          Nat.ne_of_gt below (Statement.parameterName_injective (same.trans named))
        simpa using differs
      have smallerToo : ∀ other ∈ earlier ++ [entry],
          ∃ number < first + 1, other.1 = Statement.parameterName number := by
        intro other listed
        rcases List.mem_append.mp listed with before | last
        · obtain ⟨number, below, named⟩ := smaller other before
          exact ⟨number, Nat.lt_succ_of_lt below, named⟩
        · obtain rfl := List.mem_singleton.mp last
          exact ⟨first, first.lt_succ_self, rfl⟩
      have further := inductionHypothesis fixedRest (first + 1) (earlier ++ [entry]) smallerToo
      have split :
          earlier ++ (Statement.assembleFrom dialect first (.bound value :: rest)).parameters =
            earlier ++ [entry] ++ (Statement.assembleFrom dialect (first + 1) rest).parameters := by
        simp [Statement.assembleFrom, entry]
      have resolved (later : List (String × Value)) :
          Token.resolve (earlier ++ [entry] ++ later) (.parameter entry.1) = .bound value := by
        simp [Token.resolve, List.lookup_append, new, entry]
      rw [numbered, List.map_cons, split, resolved, further]
      rfl

end Piece

/-- The statement that spaced pieces make up is read as the pieces are. -/
theorem Statement.tokens_assemble {dialect : Dialect} {pieces : List Piece}
    (spaced : Piece.Spaced dialect pieces) :
    (assemble dialect pieces).tokens dialect = pieces.flatMap (Piece.tokens dialect) := by
  have read := spaced.read 0
  have resolved := Piece.numbered_resolved spaced.fixed 0 [] (by simp)
  rw [tokens, assemble, ← Piece.text, read]
  exact resolved

end RelationalAccess
