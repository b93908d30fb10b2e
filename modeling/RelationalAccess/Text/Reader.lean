import RelationalAccess.Number.Numeral
import RelationalAccess.Text.Blank

/-!
Readers of text: each takes what it reads off the front of the characters left,
or fails.
-/

namespace RelationalAccess

/-- A reader that returns a value and leaves the rest of the text. -/
abbrev Reader := StateT (List Char) Option

namespace Reader

/-- Reads one given character. -/
def exactly (expected : Char) : Reader Unit := fun text =>
  match text with
  | char :: rest => if char = expected then some ((), rest) else none
  | [] => none

/-- Reads one given character if it comes next. -/
def optionally (expected : Char) : Reader Bool := fun text =>
  match text with
  | char :: rest => if char = expected then some (true, rest) else some (false, text)
  | [] => some (false, text)

/-- Reads white space, as much as there is. -/
def blanks : Reader Unit := fun text => some ((), Blank.skip text)

/-- Reads decimal digits, as many as there are up to `most`; fewer than `least` are refused. -/
def digits (least most : Nat) : Reader (List Nat) := fun text =>
  let run := (text.take most).takeWhile Char.isDigit
  if run.length < least then none
  else some (run.filterMap Numeral.digit?, text.drop run.length)

/-- Reads a decimal number of `least` to `most` digits. -/
def number (least most : Nat) : Reader Nat := do
  return Numeral.value 10 (← digits least most)

/-- Reads all decimal digits that come next, at least one. -/
def wholeNumber : Reader Nat := fun text => number 1 text.length text

/-- Drops the decimal digits that come next. -/
def skipDigits : Reader Unit := fun text => some ((), text.dropWhile Char.isDigit)

/-- Succeeds only where no text is left. -/
def finished : Reader Unit := fun text => if text.isEmpty then some ((), []) else none

/-- What a reader makes of a whole text. -/
def run? (reader : Reader α) (text : String) : Option α :=
  ((do let value ← reader; finished; return value) text.toList).map Prod.fst

end Reader

end RelationalAccess
