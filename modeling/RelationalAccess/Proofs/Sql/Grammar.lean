import RelationalAccess.Proofs.Query.Expression
import RelationalAccess.Proofs.Sql.Token

/-!
Conditions as an engine reads them from the tokens of a statement. What is in parentheses
binds first, then comparisons, then NOT, then AND, then OR; operands of one connective are
joined from the left. The reading goes from token to token and keeps, for each level of
parentheses, what stands before the operand that is due.
-/

namespace RelationalAccess

/-- A comparison in a statement, of a column with bound values. -/
structure Test where
  column : String
  operator : Operator
  operands : List Value := []
  deriving DecidableEq

namespace Expression

variable {Atom : Type}

/-- An expression under some NOTs. -/
def underNots : Nat → Expression Atom → Expression Atom
  | 0, expression => expression
  | negations + 1, expression => underNots negations (not expression)

/-- An expression behind another one, where there is one. -/
def behind (connective : Connective) (before : Option (Expression Atom))
    (expression : Expression Atom) : Expression Atom :=
  match before with
  | none => expression
  | some before => join connective before expression

end Expression

/-- A comparison that has begun, by what of it has been read. -/
inductive Begun where
  | number (digits : String)
  | numberEqual (digits : String)
  | column (name : String)
  | columnIs (name : String)
  | columnIsNot (name : String)
  | columnNot (name : String)
  /-- A list in parentheses is due. -/
  | membership (name : String) (operator : Operator)
  /-- The next value of a list is due. -/
  | listDue (name : String) (operator : Operator) (operands : List Value)
  | listed (name : String) (operator : Operator) (operands : List Value)
  /-- The only operand is due. -/
  | operandDue (name : String) (operator : Operator)
  | pattern (name : String) (operand : Value)
  | escapeDue (name : String) (operand : Value)
  deriving DecidableEq

namespace Begun

/-- The operator of a sign. -/
def operator? (sign : String) : Option Operator :=
  match sign with
  | "=" => some .equal
  | "<>" => some .notEqual
  | ">" => some .greater
  | ">=" => some .greaterOrEqual
  | "<" => some .less
  | "<=" => some .lessOrEqual
  | _ => none

def value (digits : String) : Nat := Nat.ofDigitChars 10 digits.toList 0

/-- What has been read after one more token, which may end the comparison. Patterns are
read with a backslash as their escape only. -/
def next : Begun → Token → Option (Begun ⊕ Expression Test)
  | number left, .sign "=" => some (.inl (numberEqual left))
  | numberEqual left, .number right => some (.inr (.constant (decide (value left = value right))))
  | column name, .word "IS" => some (.inl (columnIs name))
  | columnIs name, .word "NULL" => some (.inr (.atom { column := name, operator := .isNull }))
  | columnIs name, .word "NOT" => some (.inl (columnIsNot name))
  | columnIsNot name, .word "NULL" => some (.inr (.atom { column := name, operator := .isNotNull }))
  | column name, .word "IN" => some (.inl (membership name .isIn))
  | column name, .word "NOT" => some (.inl (columnNot name))
  | columnNot name, .word "IN" => some (.inl (membership name .isNotIn))
  | membership name operator, .sign "(" => some (.inl (listDue name operator []))
  | listDue name operator operands, .bound operand =>
    some (.inl (listed name operator (operands ++ [operand])))
  | listed name operator operands, .sign "," => some (.inl (listDue name operator operands))
  | listed name operator operands, .sign ")" =>
    some (.inr (.atom { column := name, operator, operands }))
  | column name, .word "LIKE" => some (.inl (operandDue name .like))
  | column name, .sign sign => (operator? sign).map fun operator => .inl (operandDue name operator)
  | operandDue name .like, .bound operand => some (.inl (pattern name operand))
  | operandDue name operator, .bound operand =>
    some (.inr (.atom { column := name, operator, operands := [operand] }))
  | pattern name operand, .word "ESCAPE" => some (.inl (escapeDue name operand))
  | escapeDue name operand, .text "\\" =>
    some (.inr (.atom { column := name, operator := .like, operands := [operand] }))
  | _, _ => none

end Begun

/-- What stands before an operand within its parentheses. -/
structure Frame where
  /-- The operands of OR before it. -/
  alternatives : Option (Expression Test) := none
  /-- The operands of AND before it. -/
  factors : Option (Expression Test) := none
  /-- How many NOTs stand right before it. -/
  negations : Nat := 0
  deriving DecidableEq

/-- Where the reading of a condition stands. The frames are those of the parentheses
around, from the inside. -/
inductive Reading where
  /-- An operand is due. -/
  | due (frame : Frame) (outer : List Frame)
  | within (begun : Begun) (frame : Frame) (outer : List Frame)
  /-- An operand has been read; `factors` has it as its last one. -/
  | ended (alternatives : Option (Expression Test)) (factors : Expression Test) (outer : List Frame)
  deriving DecidableEq

namespace Reading

/-- After an operand. NOT binds it first, then AND. -/
def place (frame : Frame) (operand : Expression Test) (outer : List Frame) : Reading :=
  ended frame.alternatives
    (.behind .and frame.factors (operand.underNots frame.negations)) outer

def step : Reading → Token → Option Reading
  | due frame outer, .word "NOT" => some (due { frame with negations := frame.negations + 1 } outer)
  | due frame outer, .sign "(" => some (due {} (frame :: outer))
  | due frame outer, .number digits => some (within (.number digits) frame outer)
  | due frame outer, .name name => some (within (.column name) frame outer)
  | within begun frame outer, token =>
    (begun.next token).map fun
      | .inl more => within more frame outer
      | .inr operand => place frame operand outer
  | ended alternatives factors outer, .word "AND" =>
    some (due { alternatives, factors := some factors } outer)
  | ended alternatives factors outer, .word "OR" =>
    some (due { alternatives := some (.behind .or alternatives factors) } outer)
  | ended alternatives factors (frame :: outer), .sign ")" =>
    some (place frame (.behind .or alternatives factors) outer)
  | _, _ => none

end Reading

/-- The condition that tokens are, if they are one. -/
def Expression.ofTokens? (tokens : List Token) : Option (Expression Test) :=
  match tokens.foldlM Reading.step (.due {} []) with
  | some (.ended alternatives factors []) => some (.behind .or alternatives factors)
  | _ => none

/-- NOT binds closer than AND, and AND closer than OR. -/
example : Expression.ofTokens?
    [.name "a", .word "IS", .word "NULL", .word "OR", .word "NOT", .name "b", .sign "=",
      .bound (.int 1), .word "AND", .number "1", .sign "=", .number "0"] =
    some (.join .or (.atom { column := "a", operator := .isNull })
      (.join .and (.not (.atom { column := "b", operator := .equal, operands := [.int 1] }))
        (.constant false))) := by
  decide

end RelationalAccess
