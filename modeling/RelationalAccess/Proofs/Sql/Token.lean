import RelationalAccess.Sql.Dialect

/-!
The tokens of a statement's text, as an engine reads them from left to right. A quoted
name and a quoted text end at the first mark that is not followed by another one;
in the texts of MySQL and MariaDB a backslash takes the character after it for itself as well.
Keywords are told apart from names by their having no quotes. Comments are not read.
-/

namespace RelationalAccess

/-- A token of a statement. -/
inductive Token where
  | word (text : String)
  | number (digits : String)
  | name (name : String)
  | parameter (name : String)
  /-- The value that a parameter stands for. -/
  | bound (value : Value)
  | text (content : String)
  | sign (text : String)
  /-- Quotes that do not end. -/
  | unended (content : String)
  deriving DecidableEq

namespace Token

/-- The tokens that grow with every character that belongs to them. -/
inductive Kind where
  | word
  | number
  | parameter
  | sign
  deriving DecidableEq

/-- What is between quotes. -/
inductive Quote where
  | name
  | text
  deriving DecidableEq

/-- Where the reading of a text stands. -/
inductive Place where
  /-- Between tokens. -/
  | apart
  | within (kind : Kind) (chars : List Char)
  | quoted (quote : Quote) (chars : List Char)
  /-- After a mark, which ends the quotes unless another one follows. -/
  | closing (quote : Quote) (chars : List Char)
  /-- After a backslash within a text. -/
  | escaped (chars : List Char)
  deriving DecidableEq

def isBlank (char : Char) : Bool := char == ' ' || char == '\n'

def isWordChar (char : Char) : Bool := char.isAlphanum || char == '_'

/-- Whether a character belongs to a token after those read so far. -/
def Kind.takes : Kind → List Char → Char → Bool
  | .word, _, char | .parameter, _, char => isWordChar char
  | .number, _, char => char.isDigit
  | .sign, chars, char =>
    (chars = ['<'] && (char == '>' || char == '=')) || (chars = ['>'] && char == '=')

def Kind.token (kind : Kind) (chars : List Char) : Token :=
  let text := String.ofList chars
  match kind with
  | .word => .word text
  | .number => .number text
  | .parameter => .parameter text
  | .sign => .sign text

def Quote.token (quote : Quote) (chars : List Char) : Token :=
  match quote with
  | .name => .name (String.ofList chars)
  | .text => .text (String.ofList chars)

/-- The mark on both sides of a quotation. -/
def Quote.mark (dialect : Dialect) : Quote → Char
  | .name => dialect.nameMark
  | .text => '\''

/-- Whether a character within quotes takes the next one for itself. -/
def Quote.escapes (dialect : Dialect) : Quote → Char → Bool
  | .name, _ => false
  | .text, char => dialect != .sqlite && char == '\\'

/-- What a character begins between tokens: a token that is complete, if it is one, and
where the reading stands then. -/
def start (dialect : Dialect) (char : Char) : List Token × Place :=
  if isBlank char then ([], .apart)
  else if char = dialect.nameMark then ([], .quoted .name [])
  else if char = '\'' then ([], .quoted .text [])
  else if char = dialect.parameterMark then ([], .within .parameter [])
  else if char.isDigit then ([], .within .number [char])
  else if isWordChar char then ([], .within .word [char])
  else if ['<', '>', '='].contains char then ([], .within .sign [char])
  else ([.sign (String.ofList [char])], .apart)

/-- The token that is underway where a text ends, if there is one. -/
def Place.last : Place → List Token
  | .apart => []
  | .within kind chars => [kind.token chars]
  | .closing quote chars => [quote.token chars]
  | .quoted _ chars | .escaped chars => [.unended (String.ofList chars)]

/-- A character that cannot belong to the token underway, after which another one begins. -/
def Place.turn (dialect : Dialect) (place : Place) (char : Char) : List Token × Place :=
  (place.last ++ (start dialect char).1, (start dialect char).2)

/-- The tokens that a character completes, and where the reading stands after it. -/
def Place.step (dialect : Dialect) (place : Place) (char : Char) : List Token × Place :=
  match place with
  | .apart => start dialect char
  | .within kind chars =>
    if kind.takes chars char then ([], .within kind (chars ++ [char])) else place.turn dialect char
  | .quoted quote chars =>
    if char = quote.mark dialect then ([], .closing quote chars)
    else if quote.escapes dialect char then ([], .escaped chars)
    else ([], .quoted quote (chars ++ [char]))
  | .closing quote chars =>
    if char = quote.mark dialect then ([], .quoted quote (chars ++ [char]))
    else place.turn dialect char
  | .escaped chars => ([], .quoted .text (chars ++ [char]))

/-- The tokens that a text completes, and where the reading stands after it. -/
def readFrom (dialect : Dialect) : Place → List Char → List Token × Place
  | place, [] => ([], place)
  | place, char :: rest =>
    let further := readFrom dialect (place.step dialect char).2 rest
    ((place.step dialect char).1 ++ further.1, further.2)

/-- The tokens of a text. -/
def ofText (dialect : Dialect) (text : List Char) : List Token :=
  let read := readFrom dialect .apart text
  read.1 ++ read.2.last

variable {dialect : Dialect}

@[simp] theorem readFrom_nil (place : Place) : readFrom dialect place [] = ([], place) := rfl

theorem readFrom_append (place : Place) (first second : List Char) :
    readFrom dialect place (first ++ second) =
      ((readFrom dialect place first).1 ++
          (readFrom dialect (readFrom dialect place first).2 second).1,
        (readFrom dialect (readFrom dialect place first).2 second).2) := by
  induction first generalizing place with
  | nil => rfl
  | cons char rest inductionHypothesis =>
    simp only [List.cons_append, readFrom, inductionHypothesis, List.append_assoc]

/-- A token grows over all characters that belong to it. -/
theorem readFrom_within {kind : Kind} {text : List Char}
    (taken : ∀ chars, ∀ char ∈ text, kind.takes chars char = true) (chars : List Char) :
    readFrom dialect (.within kind chars) text = ([], .within kind (chars ++ text)) := by
  induction text generalizing chars with
  | nil => simp
  | cons char rest inductionHypothesis =>
    have takes := taken chars char List.mem_cons_self
    have taken' : ∀ chars, ∀ char ∈ rest, kind.takes chars char = true :=
      fun chars other listed => taken chars other (List.mem_cons_of_mem _ listed)
    simp only [readFrom, Place.step, takes, if_true, inductionHypothesis taken',
      List.append_assoc, List.singleton_append, List.nil_append]

theorem readFrom_doubled (text chars : List Char) :
    readFrom dialect (.quoted .name chars) (Quoted.doubled dialect.nameMark text) =
      ([], .quoted .name (chars ++ text)) := by
  induction text generalizing chars with
  | nil => simp
  | cons char rest inductionHypothesis =>
    by_cases isMark : char = dialect.nameMark
    · subst isMark
      simp [Quoted.doubled_mark, readFrom, Place.step, Quote.mark, inductionHypothesis]
    · simp [Quoted.doubled, isMark, readFrom, Place.step, Quote.mark, Quote.escapes,
        inductionHypothesis]

theorem nameMark_not_blank : isBlank dialect.nameMark = false := by
  cases dialect <;> rfl

/-- A quoted name is read as the name. -/
theorem readFrom_quote (name : String) :
    readFrom dialect .apart (dialect.quote name).toList = ([], .closing .name name.toList) := by
  have opened : start dialect dialect.nameMark = ([], .quoted .name []) := by
    rw [start, nameMark_not_blank, if_neg Bool.false_ne_true, if_pos rfl]
  have inside : readFrom dialect (.quoted .name [])
      (Quoted.doubled dialect.nameMark name.toList ++ [dialect.nameMark]) = _ := readFrom_append ..
  rw [readFrom_doubled] at inside
  simp only [Dialect.quote, Quoted.encloseText, Quoted.enclose, String.toList_ofList,
    List.cons_append, readFrom, Place.step, opened, inside]
  simp [Quote.mark]

/-- Whether the text may go on with a new token. -/
def Place.settled : Place → Bool
  | .quoted _ _ | .escaped _ => false
  | _ => true

/-- A character that belongs to no token but itself. -/
def isBreak (char : Char) : Bool := [' ', ',', '(', ')'].contains char

theorem step_of_isBreak {place : Place} (settled : place.settled = true) {char : Char}
    (breaks : isBreak char = true) : place.step dialect char = place.turn dialect char := by
  have oneOf : char = ' ' ∨ char = ',' ∨ char = '(' ∨ char = ')' := by simpa [isBreak] using breaks
  cases place with
  | apart => rfl
  | within kind chars =>
    have ends : kind.takes chars char = false := by
      rcases oneOf with rfl | rfl | rfl | rfl <;> cases kind <;> simp [Kind.takes] <;> decide
    rw [Place.step, ends, if_neg Bool.false_ne_true]
  | closing quote chars =>
    have notMark : char ≠ quote.mark dialect := by
      rcases oneOf with rfl | rfl | rfl | rfl <;> cases quote <;> cases dialect <;> decide
    rw [Place.step, if_neg notMark]
  | quoted quote chars => cases settled
  | escaped chars => cases settled

/-- Where a token has ended, the text goes on as one that begins there. -/
theorem readFrom_of_isBreak {place : Place} (settled : place.settled = true) {text : List Char}
    (breaks : text.head?.any isBreak = true) :
    readFrom dialect place text =
      (place.last ++ (readFrom dialect .apart text).1, (readFrom dialect .apart text).2) := by
  cases text with
  | nil => cases breaks
  | cons char rest =>
    have turns : place.step dialect char = _ := step_of_isBreak settled breaks
    have begins : Place.step dialect .apart char = start dialect char := rfl
    rw [readFrom, readFrom, turns, begins, Place.turn, List.append_assoc]

end Token

end RelationalAccess
