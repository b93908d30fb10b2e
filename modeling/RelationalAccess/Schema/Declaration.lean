import RelationalAccess.Schema.ColumnType
import RelationalAccess.Text.Inspected
import RelationalAccess.Text.Reader

/-!
Reading the declaration of a column type: a name, perhaps arguments in
parentheses, perhaps `unsigned`. Arguments are numbers or labels, with commas
between them. White space may stand around every part.
-/

namespace RelationalAccess

/-- Why a declaration cannot be read; each cause carries the text at which
reading stopped. -/
inductive DeclarationFault where
  | noName (rest : String)
  | unreadEnd (rest : String)
  deriving DecidableEq

def DeclarationFault.message : DeclarationFault → String
  | noName rest =>
    "Parsing Error: Error \x7b input: " ++ Inspected.text rest ++ ", code: TakeWhile1 \x7d"
  | unreadEnd rest =>
    "Parsing Error: Error \x7b input: " ++ Inspected.text rest ++ ", code: Eof \x7d"

namespace Declaration

def isSpace (char : Char) : Bool := char == ' ' || char == '\t' || char == '\n' || char == '\r'

def skipSpace (text : List Char) : List Char := text.dropWhile isSpace

def isNameChar (char : Char) : Bool := char.isAlphanum || char == '_'

/-- The arguments of a type. -/
inductive Arguments where
  | numbers (numbers : List Nat)
  | labels (labels : List String)

/-- Reads a decimal number below `2 ^ 64` after white space. -/
def readNumber : Reader Nat := fun text => do
  let (number, rest) ← Reader.wholeNumber (skipSpace text)
  if number < Nat.pow 2 64 then some (number, rest) else none

/-- The content of a label, from behind its opening quote to its closing one. A
doubled quote stands for one; a quote that stands alone closes the label. -/
def labelBody : List Char → Option (List Char × List Char)
  | [] => none
  | '\x27' :: '\x27' :: rest => (labelBody rest).map fun (body, left) => ('\x27' :: body, left)
  | char :: rest =>
    if char = '\x27' then some ([], rest)
    else (labelBody rest).map fun (body, left) => (char :: body, left)

/-- Reads a label in quotes after white space. -/
def readLabel : Reader String := fun text =>
  match skipSpace text with
  | '\x27' :: rest => (labelBody rest).map fun (body, left) => (String.ofList body, left)
  | _ => none

/-- Reads a comma with white space around it. -/
def readComma : Reader Unit := fun text =>
  match skipSpace text with
  | ',' :: rest => some ((), skipSpace rest)
  | _ => none

/-- The further items of a list, each behind a comma, as many as can be read.
Every comma shortens the text, so its length bounds their number. -/
def furtherItems (item : Reader α) : Nat → List Char → List α × List Char
  | 0, text => ([], text)
  | bound + 1, text =>
    match (do readComma; item : Reader α) text with
    | none => ([], text)
    | some (first, rest) =>
      let (others, left) := furtherItems item bound rest
      (first :: others, left)

/-- Reads a list of at least one item with commas between them. -/
def readItems (item : Reader α) : Reader (List α) := fun text => do
  let (first, rest) ← item text
  let (others, left) := furtherItems item rest.length rest
  return (first :: others, left)

/-- Reads numbers, or else labels. -/
def readArgumentList : Reader Arguments := fun text =>
  ((readItems readNumber text).map fun (numbers, rest) => (.numbers numbers, rest)) <|>
    ((readItems readLabel text).map fun (labels, rest) => (.labels labels, rest))

/-- Reads arguments in parentheses after white space. -/
def readArguments : Reader Arguments := fun text =>
  match skipSpace text with
  | '(' :: rest => do
    let (arguments, left) ← readArgumentList rest
    match skipSpace left with
    | ')' :: left => some (arguments, left)
    | _ => none
  | _ => none

def unsignedWord : List Char := ['u', 'n', 's', 'i', 'g', 'n', 'e', 'd']

/-- Reads `unsigned`, in any case, after at least one white space. -/
def readUnsigned : Reader Unit := fun text =>
  let word := skipSpace text
  if word.length < text.length ∧ (word.take 8).map Char.toLower = unsignedWord then
    some ((), word.drop 8)
  else none

/-- The type that a name and its arguments stand for. Of numbers the first is
the length and the second, modulo `2 ^ 32`, the decimals. -/
def type (engine : Engine) (name : String) (arguments : Option Arguments) (unsigned : Bool) :
    ColumnType :=
  let plain := { ColumnType.named engine name with unsigned }
  match arguments with
  | none => plain
  | some (.numbers numbers) =>
    { plain with length := numbers[0]?, decimals := numbers[1]?.map (· % Nat.pow 2 32) }
  | some (.labels labels) => { plain with labels }

end Declaration

/-- Reads the declaration of a type for an engine. A part that cannot be read is
left out, and then the end of the text is not reached. -/
def ColumnType.parse (engine : Engine) (text : String) : Except DeclarationFault ColumnType :=
  let start := Declaration.skipSpace text.toList
  let name := start.takeWhile Declaration.isNameChar
  if name.isEmpty then .error (.noName (String.ofList start))
  else
    let rest := start.dropWhile Declaration.isNameChar
    let (arguments, rest) := match Declaration.readArguments rest with
      | some (arguments, left) => (some arguments, left)
      | none => (none, rest)
    let (unsigned, rest) := match Declaration.readUnsigned rest with
      | some (_, left) => (true, left)
      | none => (false, rest)
    let rest := Declaration.skipSpace rest
    if rest.isEmpty then
      .ok (Declaration.type engine (String.ofList name) arguments unsigned)
    else .error (.unreadEnd (String.ofList rest))

end RelationalAccess
