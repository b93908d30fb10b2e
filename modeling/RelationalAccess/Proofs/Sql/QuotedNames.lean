import RelationalAccess.Proofs.Sql.Token
import RelationalAccess.Proofs.Text.Readers

/-!
Quoted names, whatever characters they hold. A name in quotes is read as the name, up to its
closing mark, exactly if no further mark follows; and no other text is read as that name. So
among the tokens of a statement it is the name, and what stands around it is read as without it.
-/

namespace RelationalAccess

namespace Quoted

variable {mark : Char} {text rest content : List Char}

/-- A quotation ends at a mark that no further mark follows. -/
theorem startsApart_of_body (isRead : body mark text = some (content, rest)) :
    StartsApart (· == mark) rest := by
  fun_induction body mark text generalizing content with
  | case1 => cases isRead
  | case2 =>
    obtain ⟨_, rfl⟩ := Prod.mk.inj (Option.some.inj isRead)
    exact .nil _
  | case3 further inductionHypothesis =>
    obtain ⟨⟨inner, left⟩, isInner, same⟩ := Option.map_eq_some_iff.mp isRead
    obtain ⟨_, rfl⟩ := Prod.mk.inj same
    exact inductionHypothesis isInner
  | case4 next further isOther =>
    obtain ⟨_, rfl⟩ := Prod.mk.inj (Option.some.inj isRead)
    exact startsApart_cons.mpr (by simpa using isOther)
  | case5 char others isOther inductionHypothesis =>
    obtain ⟨⟨inner, left⟩, isInner, same⟩ := Option.map_eq_some_iff.mp isRead
    obtain ⟨_, rfl⟩ := Prod.mk.inj same
    exact inductionHypothesis isInner

theorem body_eq_some_iff : body mark text = some (content, rest) ↔
    text = doubled mark content ++ mark :: rest ∧ StartsApart (· == mark) rest := by
  constructor
  · intro isRead
    exact ⟨eq_doubled_of_body isRead, startsApart_of_body isRead⟩
  · rintro ⟨rfl, ended⟩
    exact body_doubled content ended

end Quoted

namespace Token

variable {dialect : Dialect} {rest : List Char}

/-- Whether a quoted name that comes next is a token of its own: not within quotes, nor behind
another name in quotes, which its mark would not end but prolong. -/
def Place.admitsName : Place → Bool
  | .quoted _ _ | .escaped _ | .closing .name _ => false
  | _ => true

/-- The mark around names belongs to no token that is underway. -/
theorem step_nameMark {place : Place} (admits : place.admitsName = true) :
    place.step dialect dialect.nameMark = place.turn dialect dialect.nameMark := by
  cases place with
  | apart => rfl
  | within kind chars =>
    have plain : isWordChar dialect.nameMark = false ∧ dialect.nameMark.isDigit = false ∧
        (dialect.nameMark == '>') = false ∧ (dialect.nameMark == '=') = false := by
      cases dialect <;> decide
    have ends : kind.takes chars dialect.nameMark = false := by
      cases kind <;> simp only [Kind.takes, plain, Bool.or_self, Bool.and_false]
    rw [Place.step, ends, if_neg Bool.false_ne_true]
  | closing quote chars =>
    cases quote with
    | name => cases admits
    | text =>
      have notMark : dialect.nameMark ≠ Quote.text.mark dialect := by cases dialect <;> decide
      rw [Place.step, if_neg notMark]
  | quoted quote chars => cases admits
  | escaped chars => cases admits

/-- A quoted name is begun where it is admitted as it is between tokens. -/
theorem readFrom_quote_of_admitsName {place : Place} (admits : place.admitsName = true)
    (name : String) :
    readFrom dialect place (dialect.quote name).toList = (place.last, .closing .name name.toList) := by
  have between : readFrom dialect .apart (dialect.quote name).toList = _ := readFrom_quote name
  have opened : ∃ inside, (dialect.quote name).toList = dialect.nameMark :: inside := by
    rw [Dialect.quote, Quoted.encloseText, String.toList_ofList, Quoted.enclose]
    exact ⟨_, rfl⟩
  obtain ⟨inside, begins⟩ := opened
  have turns : place.step dialect dialect.nameMark = _ := step_nameMark admits
  have starts : Place.step dialect .apart dialect.nameMark = start dialect dialect.nameMark := rfl
  rw [begins, readFrom, starts] at between
  obtain ⟨tokens, isPlace⟩ := Prod.mk.inj between
  rw [begins, readFrom, turns, Place.turn, isPlace, List.append_assoc, tokens, List.append_nil]

/-- A name is complete before what does not begin with a further mark. -/
theorem ofText_closing (name : String) (ended : StartsApart (· == dialect.nameMark) rest) :
    (readFrom dialect (.closing .name name.toList) rest).1 ++
        (readFrom dialect (.closing .name name.toList) rest).2.last =
      .name name :: ofText dialect rest := by
  have isName : Quote.name.token name.toList = .name name := by
    rw [Quote.token, String.ofList_toList]
  cases rest with
  | nil => simp [ofText, Place.last, isName]
  | cons char further =>
    have notMark : char ≠ Quote.name.mark dialect := by
      simpa [Quote.mark] using startsApart_cons.mp ended
    simp [ofText, readFrom, Place.step, notMark, Place.turn, Place.last, isName]

end Token

namespace Dialect

variable {dialect : Dialect}

/-- Reads the quoted name that a text begins with: what is behind the first mark, up to the next
one that does not stand twice, with every doubled mark taken for one. -/
def readName (dialect : Dialect) : Reader String := fun text =>
  match text with
  | [] => none
  | char :: rest =>
    if char = dialect.nameMark then
      (Quoted.body dialect.nameMark rest).map fun (name, left) => (String.ofList name, left)
    else none

theorem quote_append (name : String) (rest : List Char) : (dialect.quote name).toList ++ rest =
    dialect.nameMark :: (Quoted.doubled dialect.nameMark name.toList ++ dialect.nameMark :: rest) := by
  rw [quote, Quoted.encloseText, String.toList_ofList, Quoted.enclose, List.cons_append,
    List.cons_append, List.append_assoc]
  rfl

theorem readName_eq_some_iff {text rest : List Char} {name : String} :
    dialect.readName text = some (name, rest) ↔
      text = (dialect.quote name).toList ++ rest ∧ StartsApart (· == dialect.nameMark) rest := by
  rw [quote_append]
  constructor
  · intro isRead
    cases text with
    | nil => cases isRead
    | cons char further =>
      unfold readName at isRead
      dsimp only at isRead
      split at isRead
      · next isMark =>
        obtain ⟨⟨content, left⟩, isBody, same⟩ := Option.map_eq_some_iff.mp isRead
        obtain ⟨rfl, rfl⟩ := Prod.mk.inj same
        obtain ⟨rfl, ended⟩ := Quoted.body_eq_some_iff.mp isBody
        exact ⟨by rw [isMark, String.toList_ofList], ended⟩
      · cases isRead
  · rintro ⟨rfl, ended⟩
    have isBody := Quoted.body_doubled name.toList ended
    simp only [readName, if_true, isBody, Option.map_some, String.ofList_toList]

/-- A text begins with a name in quotes, and goes on with the given rest, exactly if it consists of
the quoted name and a rest that does not begin with a further mark. Behind any text in which the
quotes are closed, the tokens are then those of the text before, the name, and those of the rest. -/
theorem readName_quote (dialect : Dialect) (name : String) (text rest : List Char) :
    (dialect.readName text = some (name, rest) ↔
      text = (dialect.quote name).toList ++ rest ∧ StartsApart (· == dialect.nameMark) rest) ∧
    (dialect.readName text = some (name, rest) →
      ∀ before, (Token.readFrom dialect .apart before).2.admitsName = true →
        Token.ofText dialect (before ++ text) =
          Token.ofText dialect before ++ .name name :: Token.ofText dialect rest) := by
  refine ⟨readName_eq_some_iff, fun isRead before admits => ?_⟩
  obtain ⟨rfl, ended⟩ := readName_eq_some_iff.mp isRead
  have named : Token.readFrom dialect _ (dialect.quote name).toList = _ :=
    Token.readFrom_quote_of_admitsName admits name
  have behind := Token.ofText_closing name ended
  simp only [Token.ofText, Token.readFrom_append, named, List.append_assoc] at behind ⊢
  rw [behind]

/-- A name of marks and of what would be a statement, in an index of SQLite and of MySQL. -/
theorem readName_quote_hostile :
    sqlite.readName "\"\"\"); DROP TABLE \"\"users\"\"\" ON".toList =
        some ("\"); DROP TABLE \"users\"", " ON".toList) ∧
      Token.ofText sqlite
          ("CREATE INDEX ".toList ++ "\"\"\"); DROP TABLE \"\"users\"\"\" ON".toList) =
        [.word "CREATE", .word "INDEX", .name "\"); DROP TABLE \"users\"", .word "ON"] ∧
      mySql.readName "``````(`a`)".toList = some ("``", "(`a`)".toList) ∧
      Token.ofText mySql ("KEY".toList ++ "``````(`a`)".toList) =
        [.word "KEY", .name "``", .sign "(", .name "a", .sign ")"] := by
  have first := readName_quote sqlite "\"); DROP TABLE \"users\""
    "\"\"\"); DROP TABLE \"\"users\"\"\" ON".toList " ON".toList
  have second := readName_quote mySql "``" "``````(`a`)".toList "(`a`)".toList
  have isFirst := first.1.mpr ⟨by decide +kernel, startsApart_cons.mpr (by decide)⟩
  have isSecond := second.1.mpr ⟨by decide +kernel, startsApart_cons.mpr (by decide)⟩
  refine ⟨isFirst, ?_, isSecond, ?_⟩
  · rw [first.2 isFirst "CREATE INDEX ".toList (by decide +kernel)]
    decide +kernel
  · rw [second.2 isSecond "KEY".toList (by decide +kernel)]
    decide +kernel

end Dialect

end RelationalAccess
