import RelationalAccess.Text.Reader

/-!
Documents of nested lists and named entries, in the usual notation with
brackets and braces. What a reader of settings needs of them is kept: which
numbers are whole, and which texts are well formed.
-/

namespace RelationalAccess

/-- A document. -/
inductive Document where
  | null
  | bool (value : Bool)
  /-- A whole number below `2 ^ 64`, written without sign, fraction and exponent. -/
  | whole (value : Nat)
  /-- Any other number. -/
  | number
  /-- A text; `none` if it holds half a pair of surrogates. -/
  | text (content : Option String)
  | list (items : List Document)
  | record (entries : List (Option String × Document))

namespace Document

/-- One piece of a text: a character as it stands, or a unit given by its code. -/
inductive Unit16 where
  | char (char : Char)
  | code (code : Nat)

def isSpace (char : Char) : Bool := char == ' ' || char == '\t' || char == '\n' || char == '\r'

def skipSpace (chars : List Char) : List Char := chars.dropWhile isSpace

/-- The content of a text, from behind its opening mark to its closing one. -/
def readUnits : List Char → Option (List Unit16 × List Char)
  | [] => none
  | '\\' :: 'u' :: first :: second :: third :: fourth :: rest => do
    let digits ← [first, second, third, fourth].mapM Numeral.hexDigit?
    let (units, left) ← readUnits rest
    return (.code (Numeral.value 16 digits) :: units, left)
  | '\\' :: char :: rest => do
    let escaped ← match char with
      | '\x22' | '\\' | '/' => some char
      | 'b' => some '\x08'
      | 'f' => some '\x0c'
      | 'n' => some '\n'
      | 'r' => some '\r'
      | 't' => some '\t'
      | _ => none
    let (units, left) ← readUnits rest
    return (.char escaped :: units, left)
  | char :: rest =>
    if char = '\x22' then some ([], rest)
    else if char.toNat < 32 then none
    else (readUnits rest).map fun (units, left) => (.char char :: units, left)

def isHighSurrogate (code : Nat) : Bool := decide (0xD800 ≤ code) && decide (code < 0xDC00)

def isLowSurrogate (code : Nat) : Bool := decide (0xDC00 ≤ code) && decide (code < 0xE000)

/-- The characters that units stand for, two surrogates standing for one. -/
def decodeUnits : List Unit16 → Option (List Char)
  | [] => some []
  | .char char :: rest => (decodeUnits rest).map (char :: ·)
  | .code high :: .code low :: rest =>
    if isHighSurrogate high then
      if isLowSurrogate low then
        (decodeUnits rest).map
          (Char.ofNat (0x10000 + (high - 0xD800) * 0x400 + (low - 0xDC00)) :: ·)
      else none
    else if isLowSurrogate high then none
    else (decodeUnits (.code low :: rest)).map (Char.ofNat high :: ·)
  | .code code :: rest =>
    if isHighSurrogate code || isLowSurrogate code then none
    else (decodeUnits rest).map (Char.ofNat code :: ·)

/-- Reads a text from behind its opening mark. -/
def readText : Reader (Option String) := fun chars =>
  (readUnits chars).map fun (units, left) => ((decodeUnits units).map String.ofList, left)

/-- Reads a run of at least one digit. -/
def readDigits : Reader (List Nat) := fun chars => Reader.digits 1 chars.length chars

/-- Reads the fraction of a number, if there is one. -/
def readFraction : Reader Bool := do
  if ← Reader.optionally '.' then
    discard readDigits
    return true
  else return false

/-- Reads the exponent of a number, if there is one. -/
def readExponent : Reader Bool := fun chars =>
  match chars with
  | char :: rest =>
    if char = 'e' ∨ char = 'E' then
      let unsigned := match rest with
        | '+' :: left => left
        | '-' :: left => left
        | left => left
      (readDigits unsigned).map fun (_, left) => (true, left)
    else some (false, chars)
  | [] => some (false, chars)

/-- Reads a number. A zero at its front stands alone. -/
def readNumber : Reader Document := do
  let negative ← Reader.optionally '-'
  let digits ← readDigits
  if digits.head? = some 0 ∧ 1 < digits.length then failure
  let fraction ← readFraction
  let exponent ← readExponent
  let value := Numeral.value 10 digits
  if negative || fraction || exponent || decide (Nat.pow 2 64 ≤ value) then return .number
  else return .whole value

/-- Reads a word that stands for a document. -/
def readWord (word : List Char) (document : Document) : Reader Document := fun chars =>
  if chars.take word.length = word then some (document, chars.drop word.length) else none

mutual

/-- Reads a document after white space. -/
def readDocument : Nat → Reader Document
  | 0, _ => none
  | fuel + 1, chars =>
    match skipSpace chars with
    | [] => none
    | char :: rest =>
      if char = '\x22' then (readText rest).map fun (content, left) => (.text content, left)
      else if char = '[' then
        match skipSpace rest with
        | ']' :: left => some (.list [], left)
        | left => (readItems fuel left).map fun (items, left) => (.list items, left)
      else if char = '\x7b' then
        match skipSpace rest with
        | '\x7d' :: left => some (.record [], left)
        | left => (readEntries fuel left).map fun (named, left) => (.record named, left)
      else if char = 'n' then readWord ['n', 'u', 'l', 'l'] .null (char :: rest)
      else if char = 't' then readWord ['t', 'r', 'u', 'e'] (.bool true) (char :: rest)
      else if char = 'f' then readWord ['f', 'a', 'l', 's', 'e'] (.bool false) (char :: rest)
      else readNumber (char :: rest)

/-- Reads at least one item and the bracket behind the last. -/
def readItems : Nat → Reader (List Document)
  | 0, _ => none
  | fuel + 1, chars => do
    let (item, rest) ← readDocument fuel chars
    match skipSpace rest with
    | ',' :: left => (readItems fuel left).map fun (others, left) => (item :: others, left)
    | ']' :: left => some ([item], left)
    | _ => none

/-- Reads at least one named entry and the brace behind the last. -/
def readEntries : Nat → Reader (List (Option String × Document))
  | 0, _ => none
  | fuel + 1, chars => do
    match skipSpace chars with
    | '\x22' :: rest =>
      let (name, rest) ← readText rest
      match skipSpace rest with
      | ':' :: rest =>
        let (content, rest) ← readDocument fuel rest
        match skipSpace rest with
        | ',' :: left =>
          (readEntries fuel left).map fun (others, left) => ((name, content) :: others, left)
        | '\x7d' :: left => some ([(name, content)], left)
        | _ => none
      | _ => none
    | _ => none

end

/-- The document that a whole text gives. A document takes at most two steps for
each of its characters. -/
def ofText? (content : String) : Option Document :=
  let chars := content.toList
  match readDocument (2 * chars.length + 2) chars with
  | some (document, rest) => if (skipSpace rest).isEmpty then some document else none
  | none => none

end Document

end RelationalAccess
