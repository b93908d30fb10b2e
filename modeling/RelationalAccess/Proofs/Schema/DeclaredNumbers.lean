import RelationalAccess.Proofs.Schema.DeclarationGrammar

/-!
The numbers in a declaration, against those in the texts of the type that it is read as. A
declaration may have any number of them, of any size. It is refused if one does not fit into 64
bits; else its type has only the first two of them, and of the second only the last 32 bits.
-/

namespace RelationalAccess

namespace Declaration

/-- A run of decimal digits, perhaps with zeros in front, spells a number of any size. -/
structure SpellsNumeral (text : List Char) (number : Nat) : Prop where
  present : text ≠ []
  digits : ∀ char ∈ text, '0' ≤ char ∧ char ≤ '9'
  value : Nat.ofDigitChars 10 text 0 = number

/-- A text declares a type with some numbers, of any size, as its arguments. -/
inductive DeclaresNumbers : List Char → List Nat → Prop where
  | declaration {before name gap list sign after : List Char} {values : List Nat} {unsigned : Bool}
      (opens : IsGap before) (isName : IsName name) (isGap : IsGap gap)
      (spells : SpellsItems SpellsNumeral list values) (signed : SpellsSign sign unsigned)
      (closes : IsGap after) :
      DeclaresNumbers (before ++ (name ++ (gap ++ '(' :: list ++ [')'] ++ (sign ++ after)))) values

variable {α : Type} {spelling : List Char → α → Prop} {text : List Char}

/-- A list of items that are all spelled in a further way is spelled in that way. -/
theorem SpellsItems.imp {further : List Char → α → Prop} {values : List α}
    (spells : SpellsItems spelling text values)
    (each : ∀ value ∈ values, ∀ text, spelling text value → further text value) :
    SpellsItems further text values := by
  induction spells with
  | last opens spelled closes => exact .last opens (each _ List.mem_cons_self _ spelled) closes
  | more opens spelled closes _ inductionHypothesis =>
    exact .more opens (each _ List.mem_cons_self _ spelled) closes
      (inductionHypothesis fun value listed => each value (List.mem_cons_of_mem _ listed))

/-- What holds of all that is spelled holds of the items of a list. -/
theorem SpellsItems.each {holds : α → Prop} {values : List α}
    (spells : SpellsItems spelling text values)
    (spelled : ∀ text value, spelling text value → holds value) :
    ∀ value ∈ values, holds value := by
  induction spells with
  | last _ isSpelled _ => exact List.forall_mem_singleton.mpr (spelled _ _ isSpelled)
  | more _ isSpelled _ _ inductionHypothesis =>
    exact List.forall_mem_cons.mpr ⟨spelled _ _ isSpelled, inductionHypothesis⟩

theorem SpellsItems.present {values : List α} (spells : SpellsItems spelling text values) :
    values ≠ [] := by
  cases spells <;> exact List.cons_ne_nil _ _

/-- What is spelled as numbers that fit is spelled as numbers of any size. -/
theorem SpellsItems.numerals {values : List Nat} (spells : SpellsItems SpellsNumber text values) :
    SpellsItems SpellsNumeral text values :=
  spells.imp fun _ _ _ spelled => ⟨spelled.present, spelled.digits, spelled.value⟩

/-- A list of numbers that fit is one of arguments. -/
theorem SpellsItems.numbers {values : List Nat} (spells : SpellsItems SpellsNumeral text values)
    (fit : ∀ number ∈ values, number < Nat.pow 2 64) : SpellsItems SpellsNumber text values :=
  spells.imp fun number listed _ spelled =>
    ⟨spelled.present, spelled.digits, spelled.value, fit number listed⟩

/-! ### A text declares its numbers only -/

/-- Reads a decimal number of any size after white space. -/
def readNumeral : Reader Nat := fun text => Reader.wholeNumber (skipSpace text)

theorem SpellsNumeral.takesBack {number : Nat} (spells : SpellsNumeral text number) :
    TakesBack readNumeral text number :=
  have digits : ∀ char ∈ text, char.isDigit = true :=
    fun char membership => isDigit_iff.mpr (spells.digits char membership)
  ⟨startsApart_digits spells.present digits,
    fun _ => wholeNumber_digits spells.present digits spells.value⟩

theorem skipsSpace_readNumeral : SkipsSpace readNumeral := by
  intro text
  rw [readNumeral, skipSpace_skipSpace]
  rfl

theorem readNumeral_label (label : List Char) (rest : List Char) :
    readNumeral (Quoted.enclose '\x27' label ++ rest) = none := by
  rw [readNumeral, skipSpace_of_apart (show StartsApart isSpace (_ ++ rest) from
    startsApart_cons.mpr rfl)]
  rfl

/-- The numbers behind the bracket that comes next, if they are there. -/
def numeralsInBrackets? (text : List Char) : Option (List Nat) :=
  match skipSpace text with
  | '(' :: rest => (readItems readNumeral rest).map Prod.fst
  | _ => none

/-- The numbers in the brackets behind the name that comes first, if they are there. -/
def numeralsAhead? (text : List Char) : Option (List Nat) :=
  numeralsInBrackets? ((skipSpace text).dropWhile isNameChar)

variable {before name rest gap list : List Char}

/-- Numbers are looked for behind the name. -/
theorem numeralsAhead?_append (opens : IsGap before) (isName : IsName name)
    (apart : StartsApart isNameChar rest) :
    numeralsAhead? (before ++ (name ++ rest)) = numeralsInBrackets? rest := by
  have nameChars : ∀ char ∈ name, isNameChar char = true := fun char membership =>
    isNameChar_iff.mpr (isName.chars char membership)
  have begins : StartsApart isSpace (name ++ rest) := by
    obtain ⟨first, others, rfl⟩ := List.exists_cons_of_ne_nil isName.present
    exact startsApart_cons.mpr (not_isSpace_of_isNameChar (nameChars first List.mem_cons_self))
  rw [numeralsAhead?, opens.skipSpace, skipSpace_of_apart begins,
    dropWhile_append_apart nameChars apart]

theorem numeralsInBrackets?_opened (isGap : IsGap gap) (rest : List Char) :
    numeralsInBrackets? (gap ++ '(' :: list ++ [')'] ++ rest) =
      (readItems readNumeral (list ++ ')' :: rest)).map Prod.fst := by
  have opened : skipSpace (gap ++ '(' :: list ++ [')'] ++ rest) = '(' :: (list ++ ')' :: rest) := by
    rw [List.append_assoc, List.append_assoc, isGap.skipSpace, List.cons_append,
      List.singleton_append]
    exact skipSpace_cons rfl
  rw [numeralsInBrackets?, opened]
  rfl

theorem SpellsItems.numeralsInBrackets? {values : List Nat}
    (spells : SpellsItems SpellsNumeral list values) (isGap : IsGap gap) (rest : List Char) :
    Declaration.numeralsInBrackets? (gap ++ '(' :: list ++ [')'] ++ rest) = some values := by
  obtain ⟨after, _, areRead⟩ := spells.readItems SpellsNumeral.takesBack skipsSpace_readNumeral rest
  rw [numeralsInBrackets?_opened isGap, areRead]
  rfl

/-- Of the arguments of a declaration the numbers are found, and no labels. -/
theorem SpellsBrackets.numeralsInBrackets? {arguments : Option Arguments}
    (spells : SpellsBrackets text arguments) (apart : StartsApart (· == '(') (skipSpace rest))
    {values : List Nat} (found : Declaration.numeralsInBrackets? (text ++ rest) = some values) :
    arguments = some (.numbers values) := by
  cases spells with
  | absent =>
    unfold Declaration.numeralsInBrackets? at found
    split at found
    · next opened => exact absurd (opened ▸ apart) (by simp)
    · cases found
  | present isGap spells =>
    cases spells with
    | numbers spells =>
      rw [spells.numerals.numeralsInBrackets? isGap rest] at found
      rw [Option.some.inj found]
    | labels spells =>
      rw [numeralsInBrackets?_opened isGap, spells.readItems_none skipsSpace_readNumeral
        readNumeral_label] at found
      cases found

theorem startsApart_opened (isGap : IsGap gap) (rest : List Char) :
    StartsApart isNameChar (gap ++ '(' :: list ++ [')'] ++ rest) := by
  rw [List.append_assoc, List.append_assoc]
  exact isGap.startsApart fun _ => startsApart_cons.mpr rfl

namespace DeclaresNumbers

variable {values others : List Nat}

theorem numeralsAhead? (declares : DeclaresNumbers text values) :
    Declaration.numeralsAhead? text = some values := by
  obtain ⟨opens, isName, isGap, spells, _, _⟩ := declares
  rw [numeralsAhead?_append opens isName (startsApart_opened isGap _)]
  exact spells.numeralsInBrackets? isGap _

/-- A text declares one list of numbers only. -/
theorem unique (declares : DeclaresNumbers text values) (also : DeclaresNumbers text others) :
    values = others :=
  Option.some.inj (declares.numeralsAhead?.symm.trans also.numeralsAhead?)

theorem present (declares : DeclaresNumbers text values) : values ≠ [] := by
  obtain ⟨_, _, _, spells, _, _⟩ := declares
  exact spells.present

/-- A text that declares numbers states them and nothing else, if it is a declaration. -/
theorem arguments (declares : DeclaresNumbers text values) {form : Form}
    (spells : Spells text form) :
    form.arguments = some (.numbers values) := by
  have found := declares.numeralsAhead?
  obtain ⟨opens, isName, argued, signed, closes⟩ := spells
  rw [numeralsAhead?_append opens isName (argued.startsApart (signed.startsApart closes))] at found
  exact argued.numeralsInBrackets? (signed.noBracket closes) found

/-- It is a declaration exactly if all its numbers fit. -/
theorem spells_iff (declares : DeclaresNumbers text values) :
    (∃ form, Spells text form) ↔ ∀ number ∈ values, number < Nat.pow 2 64 := by
  constructor
  · rintro ⟨form, spells⟩
    have arguments := declares.arguments spells
    obtain ⟨_, _, argued, _, _⟩ := spells
    subst arguments
    cases argued with
    | present _ spells =>
      cases spells with
      | numbers spells => exact spells.each fun _ _ spelled => spelled.fits
  · intro fit
    obtain ⟨opens, isName, isGap, spells, signed, closes⟩ := declares
    have argued := SpellsBrackets.present isGap (.numbers (spells.numbers fit))
    exact ⟨_, .declaration opens isName argued signed closes⟩

end DeclaresNumbers

/-! ### The numbers in the texts of a type -/

theorem spellsNumeral_decimal (number : Nat) : SpellsNumeral (Numeral.decimal number) number where
  present := List.ne_nil_of_length_pos (Numeral.length_decimal_pos number)
  digits := fun _ membership => isDigit_iff.mp (Numeral.isDigit_of_mem_decimal membership)
  value := Nat.ofDigitChars_ten_toDigits

theorem isName_of_all {text : List Char} (present : text ≠ []) (all : text.all isNameChar = true) :
    IsName text where
  present := present
  chars := fun char membership => isNameChar_iff.mp (List.all_eq_true.mp all char membership)

theorem spellsItems_decimals (first : Nat) (others : List Nat) :
    SpellsItems SpellsNumeral ([','].intercalate ((first :: others).map Numeral.decimal))
      (first :: others) := by
  have noGap : IsGap [] := List.forall_mem_nil _
  induction others generalizing first with
  | nil => simpa using SpellsItems.last noGap (spellsNumeral_decimal first) noGap
  | cons second rest inductionHypothesis =>
    have more := SpellsItems.more noGap (spellsNumeral_decimal first) noGap
      (inductionHypothesis second)
    simpa [List.intercalate] using more

/-- A name with numbers in brackets and perhaps the word for types without a sign declares these
numbers. -/
theorem declaresNumbers_written {word : List Char} {values : List Nat} (isName : IsName name)
    (isWord : word.map Char.toLower = unsignedWord) (present : values ≠ []) (unsigned : Bool) :
    DeclaresNumbers (name ++ ((Arguments.numbers values).written ++
      if unsigned then ' ' :: word else [])) values := by
  have noGap : IsGap [] := List.forall_mem_nil _
  obtain ⟨first, others, rfl⟩ := List.exists_cons_of_ne_nil present
  have sign : SpellsSign (if unsigned then ' ' :: word else []) unsigned := by
    cases unsigned with
    | false => exact .absent
    | true =>
      have isGap : IsGap [' '] := List.forall_mem_singleton.mpr (by decide)
      exact .present isGap (List.cons_ne_nil _ _) isWord
  have declares := DeclaresNumbers.declaration noGap isName noGap
    (spellsItems_decimals first others) sign noGap
  simpa [Arguments.written] using declares

/-- The numbers of a declaration that its type has: the first, and the last 32 bits of the
second. -/
def keptNumbers (values : List Nat) : List Nat :=
  values[0]?.toList ++ (values[1]?.map (· % Nat.pow 2 32)).toList

/-- The type has all numbers as they are if there are at most two, the second not too great. -/
theorem eq_keptNumbers_iff {values : List Nat} :
    values = keptNumbers values ↔
      values.length ≤ 2 ∧ ∀ decimals, values[1]? = some decimals → decimals < Nat.pow 2 32 := by
  have fits (number : Nat) : number = number % Nat.pow 2 32 ↔ number < Nat.pow 2 32 :=
    ⟨fun same => same ▸ Nat.mod_lt _ (by decide), fun small => (Nat.mod_eq_of_lt small).symm⟩
  match values with
  | [] => simp [keptNumbers]
  | [length] => simp [keptNumbers]
  | [length, decimals] => simpa [keptNumbers] using fits decimals
  | _ :: _ :: _ :: _ => simp [keptNumbers]

end Declaration

namespace ColumnType

open Declaration

variable {type : ColumnType} {values : List Nat}

/-- The arguments of a type that is read from a declaration of numbers. -/
theorem arguments?_of_numbers (engine : Engine) {form : Form}
    (stated : form.arguments = some (.numbers values)) (present : values ≠ []) :
    (form.type engine).arguments? = some (.numbers (keptNumbers values)) := by
  obtain ⟨first, others, rfl⟩ := List.exists_cons_of_ne_nil present
  simp [arguments?, Form.type, Form.numbers, Form.labels, stated, keptNumbers]

theorem Declarable.isName (declarable : type.Declarable) : IsName type.name.toList where
  present := declarable.named
  chars := fun char membership => isNameChar_iff.mp (declarable.nameChars char membership).1

theorem Declarable.isName_upper (declarable : type.Declarable) :
    IsName (type.name.toList.map Char.toUpper) where
  present := by simpa using declarable.named
  chars := List.forall_mem_map.mpr fun char membership =>
    isNameChar_iff.mp (isNameChar_toUpper (declarable.nameChars char membership).1)

/-- Both texts of a type with numbers declare its numbers. -/
theorem Declarable.declaresNumbers (declarable : type.Declarable) (present : values ≠ [])
    (arguments : type.arguments? = some (.numbers values)) :
    DeclaresNumbers type.display.toList values ∧ DeclaresNumbers type.ddl.toList values := by
  have written : type.argumentsText.toList = (Arguments.numbers values).written := by
    rw [argumentsText_toList, arguments]
    rfl
  constructor
  · have sign : (if type.unsigned then " unsigned" else "").toList =
        if type.unsigned then ' ' :: unsignedWord else [] := by
      cases type.unsigned <;> rfl
    rw [display, String.toList_append, String.toList_append, written, sign, List.append_assoc]
    exact declaresNumbers_written declarable.isName (by decide) present type.unsigned
  · have sign : (if type.unsigned then " UNSIGNED" else "").toList =
        if type.unsigned then ' ' :: unsignedWord.map Char.toUpper else [] := by
      cases type.unsigned <;> rfl
    rw [ddl, String.toList_append, String.toList_append, written, sign, String.toList_ofList,
      List.append_assoc]
    exact declaresNumbers_written declarable.isName_upper (by decide) present type.unsigned

/-- A declaration of numbers is accepted exactly if they all fit into 64 bits. Each of the two texts
of its type declares the same numbers, if and only if there are at most two and the second one fits
into 32 bits. -/
theorem parse_numbers_iff (engine : Engine) {text : String} {numbers : List Nat}
    (declares : DeclaresNumbers text.toList numbers) :
    ((∃ type, parse engine text = .ok type) ↔ ∀ number ∈ numbers, number < Nat.pow 2 64) ∧
      ∀ type, parse engine text = .ok type →
        (DeclaresNumbers type.display.toList numbers ↔ numbers.length ≤ 2 ∧
          ∀ decimals, numbers[1]? = some decimals → decimals < Nat.pow 2 32) ∧
        (DeclaresNumbers type.ddl.toList numbers ↔ numbers.length ≤ 2 ∧
          ∀ decimals, numbers[1]? = some decimals → decimals < Nat.pow 2 32) := by
  constructor
  · rw [← declares.spells_iff]
    constructor
    · rintro ⟨type, isRead⟩
      obtain ⟨form, spells, _⟩ := (parse_eq_ok_iff_spells engine text type).mp isRead
      exact ⟨form, spells⟩
    · rintro ⟨form, spells⟩
      exact ⟨_, (parse_eq_ok_iff_spells engine text _).mpr ⟨form, spells, rfl⟩⟩
  · intro type isRead
    have declarable := Declarable.ofParse isRead
    obtain ⟨form, spells, rfl⟩ := (parse_eq_ok_iff_spells engine text type).mp isRead
    have arguments := arguments?_of_numbers engine (declares.arguments spells)
      declares.present
    have kept : keptNumbers numbers ≠ [] := by
      obtain ⟨first, others, rfl⟩ := List.exists_cons_of_ne_nil declares.present
      exact List.cons_ne_nil _ _
    -- a text declares one list of numbers only, and both texts declare those that are kept
    obtain ⟨onDisplay, onDdl⟩ := declarable.declaresNumbers kept arguments
    rw [← eq_keptNumbers_iff]
    exact ⟨⟨fun shown => shown.unique onDisplay, fun same => same ▸ onDisplay⟩,
      ⟨fun shown => shown.unique onDdl, fun same => same ▸ onDdl⟩⟩

/-- The decimals of a type whose declaration states more than 32 bits are others than those
declared. -/
theorem price_not_declared :
    DeclaresNumbers "decimal(10,4294967298)".toList [10, 4294967298] ∧
      ∃ type, parse .mySql "decimal(10,4294967298)" = .ok type ∧
        ¬ DeclaresNumbers type.display.toList [10, 4294967298] ∧
        ¬ DeclaresNumbers type.ddl.toList [10, 4294967298] := by
  have isName : IsName "decimal".toList := isName_of_all (by decide) (by decide)
  have isWord : unsignedWord.map Char.toLower = unsignedWord := by decide
  have declares := declaresNumbers_written isName isWord (List.cons_ne_nil 10 [4294967298]) false
  obtain ⟨type, isRead, arguments⟩ : ∃ type, parse .mySql "decimal(10,4294967298)" = .ok type ∧
    type.arguments? = some (.numbers [10, 2]) := ⟨_, rfl, rfl⟩
  obtain ⟨onDisplay, onDdl⟩ :=
    (Declarable.ofParse isRead).declaresNumbers (List.cons_ne_nil 10 [2]) arguments
  exact ⟨declares, type, isRead, fun shown => absurd (shown.unique onDisplay) (by decide),
    fun shown => absurd (shown.unique onDdl) (by decide)⟩

/-- Two small numbers are kept, and a number beyond 64 bits is refused. -/
theorem parse_numbers_iff_amount :
    (∃ type, parse .mySql "decimal( 10 ,2)" = .ok type ∧
        DeclaresNumbers type.display.toList [10, 2] ∧ DeclaresNumbers type.ddl.toList [10, 2]) ∧
      ¬ ∃ type, parse .mySql "decimal(10,18446744073709551616)" = .ok type := by
  have noGap : IsGap [] := List.forall_mem_nil _
  have isGap : IsGap [' '] := List.forall_mem_singleton.mpr (by decide)
  have isName : IsName "decimal".toList := isName_of_all (by decide) (by decide)
  have ten : SpellsNumeral ['1', '0'] 10 := spellsNumeral_decimal 10
  have two : SpellsNumeral ['2'] 2 := spellsNumeral_decimal 2
  have amount : DeclaresNumbers "decimal( 10 ,2)".toList [10, 2] :=
    .declaration noGap isName noGap (.more isGap ten isGap (.last noGap two noGap)) .absent noGap
  have isWord : unsignedWord.map Char.toLower = unsignedWord := by decide
  have written : "decimal(10,18446744073709551616)".toList =
    "decimal".toList ++ ((Arguments.numbers [10, 18446744073709551616]).written ++ []) := by decide
  have great : DeclaresNumbers "decimal(10,18446744073709551616)".toList
      [10, 18446744073709551616] :=
    written ▸ declaresNumbers_written isName isWord (List.cons_ne_nil _ _) false
  have kept : [10, 2].length ≤ 2 ∧
      ∀ decimals, [10, 2][1]? = some decimals → decimals < Nat.pow 2 32 :=
    ⟨by decide, by rintro _ ⟨⟩; decide⟩
  obtain ⟨accepted, keeps⟩ := parse_numbers_iff .mySql amount
  obtain ⟨type, isRead⟩ := accepted.mpr (by decide)
  refine ⟨⟨type, isRead, (keeps type isRead).1.mpr kept, (keeps type isRead).2.mpr kept⟩, ?_⟩
  intro isRead
  exact absurd ((parse_numbers_iff .mySql great).1.mp isRead _
    (List.mem_cons_of_mem _ (List.mem_singleton_self _))) (by decide)

end ColumnType

end RelationalAccess
