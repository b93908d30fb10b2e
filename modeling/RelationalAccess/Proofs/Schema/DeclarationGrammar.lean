import RelationalAccess.Proofs.Schema.TypeTexts

/-!
The grammar of declarations: white space, a name, perhaps arguments in parentheses, perhaps the
word for types without a sign, and white space. Reading accepts exactly what the grammar derives,
however the spaces, the quotes and the zeros in front of numbers stand, and a declaration that is
accepted is read as what it is derived from.
-/

namespace RelationalAccess

namespace Declaration

/-! ### The grammar -/

/-- White space, perhaps none: spaces, tabs and ends of lines. -/
def IsGap (text : List Char) : Prop := ∀ char ∈ text, char ∈ [' ', '\t', '\r', '\n']

/-- A run of letters, digits and underscores. -/
structure IsName (text : List Char) : Prop where
  present : text ≠ []
  chars : ∀ char ∈ text, 'a' ≤ char ∧ char ≤ 'z' ∨ 'A' ≤ char ∧ char ≤ 'Z' ∨
    '0' ≤ char ∧ char ≤ '9' ∨ char = '_'

/-- A run of decimal digits, perhaps with zeros in front, spells a number that is not too great. -/
structure SpellsNumber (text : List Char) (number : Nat) : Prop where
  present : text ≠ []
  digits : ∀ char ∈ text, '0' ≤ char ∧ char ≤ '9'
  value : Nat.ofDigitChars 10 text 0 = number
  fits : number < Nat.pow 2 64

/-- A label stands in quotes, with the quotes inside doubled. -/
def SpellsLabel (text : List Char) (label : String) : Prop :=
  text = '\x27' :: (Quoted.doubled '\x27' label.toList ++ ['\x27'])

/-- A list has a comma between any two items, and perhaps white space around each. -/
inductive SpellsItems (item : List Char → α → Prop) : List Char → List α → Prop where
  | last {before text after : List Char} {value : α} (opens : IsGap before) (spells : item text value)
      (closes : IsGap after) : SpellsItems item (before ++ text ++ after) [value]
  | more {before text after others : List Char} {value : α} {values : List α}
      (opens : IsGap before) (spells : item text value) (closes : IsGap after)
      (further : SpellsItems item others values) :
      SpellsItems item (before ++ text ++ after ++ ',' :: others) (value :: values)

/-- Arguments are numbers or labels. -/
inductive SpellsArguments : List Char → Arguments → Prop where
  | numbers {text : List Char} {values : List Nat} (spells : SpellsItems SpellsNumber text values) :
      SpellsArguments text (.numbers values)
  | labels {text : List Char} {values : List String} (spells : SpellsItems SpellsLabel text values) :
      SpellsArguments text (.labels values)

/-- Arguments in parentheses, or none. -/
inductive SpellsBrackets : List Char → Option Arguments → Prop where
  | absent : SpellsBrackets [] none
  | present {gap text : List Char} {arguments : Arguments} (isGap : IsGap gap)
      (spells : SpellsArguments text arguments) :
      SpellsBrackets (gap ++ '(' :: text ++ [')']) (some arguments)

/-- The word for types without a sign, in any case, or nothing. -/
inductive SpellsSign : List Char → Bool → Prop where
  | absent : SpellsSign [] false
  | present {gap word : List Char} (isGap : IsGap gap) (apart : gap ≠ [])
      (isWord : word.map Char.toLower = ['u', 'n', 's', 'i', 'g', 'n', 'e', 'd']) :
      SpellsSign (gap ++ word) true

/-- What a declaration states: a name as it is written, perhaps arguments, and whether the type
is one without a sign. -/
structure Form where
  name : List Char
  arguments : Option Arguments
  unsigned : Bool

/-- A text is a declaration of what a form states. -/
inductive Spells : List Char → Form → Prop where
  | declaration {before name brackets sign after : List Char} {arguments : Option Arguments}
      {unsigned : Bool} (opens : IsGap before) (isName : IsName name)
      (argued : SpellsBrackets brackets arguments) (signed : SpellsSign sign unsigned)
      (closes : IsGap after) :
      Spells (before ++ (name ++ (brackets ++ (sign ++ after)))) ⟨name, arguments, unsigned⟩

namespace Form

/-- The numbers that a form has for arguments. -/
def numbers (form : Form) : List Nat :=
  match form.arguments with
  | some (.numbers values) => values
  | _ => []

/-- The labels that a form has for arguments. -/
def labels (form : Form) : List String :=
  match form.arguments with
  | some (.labels values) => values
  | _ => []

/-- The type that a form declares: its name in lower case, and of its numbers the first as the
length and the second, modulo `2 ^ 32`, as the decimals. -/
def type (engine : Engine) (form : Form) : ColumnType :=
  { engine
    name := String.ofList (form.name.map Char.toLower)
    length := form.numbers[0]?
    decimals := form.numbers[1]?.map (· % Nat.pow 2 32)
    unsigned := form.unsigned
    labels := form.labels }

theorem type_eq (engine : Engine) (form : Form) :
    Declaration.type engine (String.ofList form.name) form.arguments form.unsigned =
      form.type engine := by
  obtain ⟨name, arguments, unsigned⟩ := form
  unfold Declaration.type ColumnType.named
  rw [String.toList_ofList]
  rcases arguments with _ | (values | values) <;> rfl

end Form

/-! ### Characters -/

variable {text rest gap : List Char}

theorem isSpace_iff {char : Char} : isSpace char = true ↔ char ∈ [' ', '\t', '\r', '\n'] := by
  simp only [isSpace, Bool.or_eq_true, beq_iff_eq, List.mem_cons, List.not_mem_nil, or_false]
  tauto

theorem isNameChar_iff {char : Char} : isNameChar char = true ↔
    'a' ≤ char ∧ char ≤ 'z' ∨ 'A' ≤ char ∧ char ≤ 'Z' ∨ '0' ≤ char ∧ char ≤ '9' ∨ char = '_' := by
  rw [isNameChar, Bool.or_eq_true, isAlphanum_iff, beq_iff_eq]
  tauto

theorem IsGap.spaces (isGap : IsGap gap) : ∀ char ∈ gap, isSpace char = true :=
  fun char membership => isSpace_iff.mpr (isGap char membership)

theorem IsGap.append {before after : List Char} (first : IsGap before) (second : IsGap after) :
    IsGap (before ++ after) :=
  List.forall_mem_append.mpr ⟨first, second⟩

theorem IsGap.skipSpace (isGap : IsGap gap) (text : List Char) :
    skipSpace (gap ++ text) = skipSpace text :=
  skipSpace_append isGap.spaces

theorem IsGap.skipSpace_self (isGap : IsGap gap) : Declaration.skipSpace gap = [] :=
  List.dropWhile_eq_nil_iff.mpr isGap.spaces

/-- A text is white space with what is left once that is skipped. -/
theorem exists_gap (text : List Char) : ∃ gap, IsGap gap ∧ text = gap ++ skipSpace text :=
  ⟨text.takeWhile isSpace, fun _ membership => isSpace_iff.mp (List.mem_takeWhile_imp membership),
    List.takeWhile_append_dropWhile.symm⟩

/-! ### What is spelled is read -/

theorem SpellsNumber.takesBack {number : Nat} (spells : SpellsNumber text number) :
    TakesBack readNumber text number :=
  takesBack_digits spells.present
    (fun char membership => isDigit_iff.mpr (spells.digits char membership)) spells.value spells.fits

theorem SpellsLabel.takesBack {label : String} (spells : SpellsLabel text label) :
    TakesBack readLabel text label := by
  rw [show text = Quoted.enclose '\x27' label.toList from spells]
  exact takesBack_label label

/-- A reader that does not mind white space in front. -/
def SkipsSpace (item : Reader α) : Prop := ∀ text, item (skipSpace text) = item text

theorem skipSpace_skipSpace (text : List Char) : skipSpace (skipSpace text) = skipSpace text := by
  obtain ⟨gap, isGap, split⟩ := exists_gap text
  conv_rhs => rw [split, isGap.skipSpace]

theorem skipsSpace_readNumber : SkipsSpace readNumber := by
  intro text
  rw [readNumber, skipSpace_skipSpace]
  rfl

theorem skipsSpace_readLabel : SkipsSpace readLabel := by
  intro text
  rw [readLabel, skipSpace_skipSpace]
  rfl

variable {α : Type} {item : Reader α} {spelling : List Char → α → Prop}

theorem SkipsSpace.append (skips : SkipsSpace item) (isGap : IsGap gap) (text : List Char) :
    item (gap ++ text) = item text := by
  rw [← skips (gap ++ text), isGap.skipSpace, skips]

/-- An item in white space is read, up to the comma or the bracket behind it. -/
theorem TakesBack.readItem {value : α} (takes : TakesBack item text value) (skips : SkipsSpace item)
    {before after : List Char} (opens : IsGap before) (closes : IsGap after) {char : Char}
    (ends : char = ',' ∨ char = ')') (rest : List Char) :
    item (before ++ text ++ after ++ char :: rest) = some (value, after ++ char :: rest) := by
  have endsItem : EndsItem (after ++ char :: rest) := by
    rcases ends with rfl | rfl
    · exact ⟨rest, .inl (by rw [closes.skipSpace]; exact skipSpace_cons rfl)⟩
    · exact ⟨rest, .inr (by rw [closes.skipSpace]; exact skipSpace_cons rfl)⟩
  rw [List.append_assoc, List.append_assoc, skips.append opens, takes.read _ endsItem]

/-- No further item is read where the list ends. -/
theorem furtherItems_closed {after : List Char} (closes : IsGap after) (rest : List Char)
    (bound : Nat) :
    furtherItems item bound (after ++ ')' :: rest) = ([], after ++ ')' :: rest) := by
  cases bound with
  | zero => rfl
  | succ bound =>
    have noComma : (do readComma; item : Reader α) (after ++ ')' :: rest) = none :=
      Reader.bind_of_none (by rw [readComma, closes.skipSpace, skipSpace_cons rfl]; rfl)
    rw [furtherItems, noComma]

/-- A comma is read together with the white space around it. -/
theorem readComma_cons {after : List Char} (closes : IsGap after) (rest : List Char) :
    readComma (after ++ ',' :: rest) = some ((), skipSpace rest) := by
  unfold readComma
  rw [closes.skipSpace, skipSpace_cons rfl]
  rfl

/-- The commas of a list bound the number of its items. -/
theorem SpellsItems.length_le {values : List α} (spells : SpellsItems spelling text values) :
    values.length ≤ text.length + 1 := by
  induction spells with
  | last => simp
  | more =>
    simp only [List.length_cons, List.length_append]
    omega

/-- Of a list the first item is read, and behind it all that follow. -/
theorem SpellsItems.read {values : List α} (spells : SpellsItems spelling text values)
    (takes : ∀ {text value}, spelling text value → TakesBack item text value)
    (skips : SkipsSpace item) (rest : List Char) :
    ∃ first others behind after, values = first :: others ∧ IsGap after ∧
      item (text ++ ')' :: rest) = some (first, behind) ∧ others.length ≤ behind.length ∧
        ∀ bound, others.length ≤ bound →
          furtherItems item bound behind = (others, after ++ ')' :: rest) := by
  induction spells with
  | @last before text after value opens spelled closes =>
    exact ⟨value, [], _, after, rfl, closes,
      (takes spelled).readItem skips opens closes (.inr rfl) rest, Nat.zero_le _,
      fun bound _ => furtherItems_closed closes rest bound⟩
  | @more before text after others value values opens spelled closes further inductionHypothesis =>
    have count := further.length_le
    obtain ⟨next, following, behind, final, rfl, isGap, isNext, _, areFollowing⟩ :=
      inductionHypothesis
    have isFirst := (takes spelled).readItem skips opens closes (.inl rfl) (others ++ ')' :: rest)
    rw [List.append_assoc, List.cons_append]
    refine ⟨value, next :: following, _, final, rfl, isGap, isFirst, ?_, fun bound enough => ?_⟩
    · simp only [List.length_append, List.length_cons] at count ⊢
      omega
    · have isRead : (do readComma; item : Reader α) (after ++ ',' :: (others ++ ')' :: rest)) =
          some (next, behind) := by
        rw [Reader.bind_of_read (readComma_cons closes _), skips, isNext]
      cases bound with
      | zero => cases enough
      | succ bound =>
        rw [furtherItems, isRead]
        dsimp only
        rw [areFollowing bound (Nat.le_of_succ_le_succ enough)]

theorem SpellsItems.readItems {values : List α} (spells : SpellsItems spelling text values)
    (takes : ∀ {text value}, spelling text value → TakesBack item text value)
    (skips : SkipsSpace item) (rest : List Char) :
    ∃ after, IsGap after ∧ Declaration.readItems item (text ++ ')' :: rest) =
      some (values, after ++ ')' :: rest) := by
  obtain ⟨first, others, behind, after, rfl, isGap, isFirst, count, areOthers⟩ :=
    spells.read takes skips rest
  refine ⟨after, isGap, ?_⟩
  rw [Declaration.readItems, isFirst]
  simp only [Option.bind_eq_bind, Option.bind_some, areOthers _ count]
  rfl

/-- A list begins with an item, perhaps behind white space. -/
theorem SpellsItems.begins {values : List α} (spells : SpellsItems spelling text values) :
    ∃ before first behind value, IsGap before ∧ spelling first value ∧
      text = before ++ (first ++ behind) := by
  cases spells with
  | last opens spelled _ => exact ⟨_, _, _, _, opens, spelled, List.append_assoc ..⟩
  | more opens spelled _ _ =>
    exact ⟨_, _, _, _, opens, spelled, by rw [List.append_assoc, List.append_assoc]⟩

theorem readNumber_label (label : List Char) (rest : List Char) :
    readNumber (Quoted.enclose '\x27' label ++ rest) = none := by
  rw [readNumber, skipSpace_of_apart (show StartsApart isSpace (_ ++ rest) from
    startsApart_cons.mpr rfl)]
  rfl

/-- Labels are not read by what does not read a label. -/
theorem SpellsItems.readItems_none {values : List String} (spells : SpellsItems SpellsLabel text values)
    (skips : SkipsSpace item)
    (noLabel : ∀ label rest, item (Quoted.enclose '\x27' label ++ rest) = none)
    (rest : List Char) : Declaration.readItems item (text ++ rest) = none := by
  obtain ⟨before, first, behind, label, opens, isLabel, rfl⟩ := spells.begins
  have noItem : item (first ++ (behind ++ rest)) = none := by
    rw [show first = Quoted.enclose '\x27' label.toList from isLabel]
    exact noLabel label.toList _
  rw [List.append_assoc, List.append_assoc, Declaration.readItems, skips.append opens, noItem]
  rfl

theorem readArguments_closed {list after : List Char} {arguments : Arguments} (opens : IsGap gap)
    (closes : IsGap after) (isRead : readArgumentList list = some (arguments, after ++ ')' :: rest)) :
    readArguments (gap ++ '(' :: list) = some (arguments, rest) := by
  have closed : skipSpace (after ++ ')' :: rest) = ')' :: rest :=
    (closes.skipSpace _).trans (skipSpace_cons rfl)
  simp [readArguments, opens.skipSpace, skipSpace_cons, isSpace, isRead, closed]

theorem SpellsArguments.read {arguments : Arguments} (spells : SpellsArguments text arguments)
    (rest : List Char) :
    ∃ after, IsGap after ∧
      readArgumentList (text ++ ')' :: rest) = some (arguments, after ++ ')' :: rest) := by
  cases spells with
  | numbers spells =>
    obtain ⟨after, isGap, areRead⟩ := spells.readItems SpellsNumber.takesBack skipsSpace_readNumber rest
    exact ⟨after, isGap, by rw [readArgumentList, areRead]; rfl⟩
  | labels spells =>
    obtain ⟨after, isGap, areRead⟩ := spells.readItems SpellsLabel.takesBack skipsSpace_readLabel rest
    refine ⟨after, isGap, ?_⟩
    rw [readArgumentList, areRead, spells.readItems_none skipsSpace_readNumber readNumber_label]
    rfl

theorem SpellsBrackets.next {arguments : Option Arguments} (spells : SpellsBrackets text arguments)
    (apart : StartsApart (· == '(') (skipSpace rest)) :
    nextArguments (text ++ rest) = (arguments, rest) := by
  cases spells with
  | absent => rw [List.nil_append, nextArguments, readArguments_of_apart apart]
  | @present gap text arguments isGap spells =>
    obtain ⟨after, closes, isRead⟩ := spells.read rest
    have isList : readArguments (gap ++ '(' :: text ++ [')'] ++ rest) = some (arguments, rest) := by
      rw [List.append_assoc, List.append_assoc, List.cons_append]
      exact readArguments_closed isGap closes isRead
    rw [nextArguments, isList]

theorem SpellsSign.next {unsigned : Bool} {after : List Char} (spells : SpellsSign text unsigned)
    (closes : IsGap after) : nextUnsigned (text ++ after) = (unsigned, after) := by
  cases spells with
  | absent =>
    have noWord : readUnsigned after = none := by
      rw [readUnsigned, closes.skipSpace_self]
      exact if_neg fun isWord => absurd isWord.2 (by decide)
    rw [List.nil_append, nextUnsigned, noWord]
  | @present gap word isGap present isWord =>
    have isRead : readUnsigned (gap ++ word ++ after) = some ((), after) := by
      rw [List.append_assoc]
      exact readUnsigned_written isGap.spaces present isWord
    rw [nextUnsigned, isRead]

/-- White space, or else what follows it, is no part of a name. -/
theorem IsGap.startsApart (isGap : IsGap gap) (ends : gap = [] → StartsApart isNameChar rest) :
    StartsApart isNameChar (gap ++ rest) := by
  cases gap with
  | nil => exact ends rfl
  | cons char others =>
    refine startsApart_cons.mpr ?_
    have space := isGap.spaces char List.mem_cons_self
    by_contra isName
    rw [not_isSpace_of_isNameChar (Bool.not_eq_false _ ▸ isName)] at space
    cases space

theorem SpellsSign.startsApart {unsigned : Bool} {after : List Char} (spells : SpellsSign text unsigned)
    (closes : IsGap after) : StartsApart isNameChar (text ++ after) := by
  cases spells with
  | absent => simpa using closes.startsApart fun _ => .nil isNameChar
  | present isGap present _ =>
    rw [List.append_assoc]
    exact isGap.startsApart fun isEmpty => absurd isEmpty present

theorem SpellsSign.noBracket {unsigned : Bool} {after : List Char} (spells : SpellsSign text unsigned)
    (closes : IsGap after) : StartsApart (· == '(') (skipSpace (text ++ after)) := by
  cases spells with
  | absent =>
    rw [List.nil_append, closes.skipSpace_self]
    exact .nil _
  | present isGap _ isWord =>
    obtain ⟨skipped, apart⟩ := skipSpace_word isGap.spaces isWord after
    rwa [List.append_assoc, skipped]

theorem SpellsBrackets.startsApart {arguments : Option Arguments}
    (spells : SpellsBrackets text arguments) (apart : StartsApart isNameChar rest) :
    StartsApart isNameChar (text ++ rest) := by
  cases spells with
  | absent => exact apart
  | present isGap _ =>
    rw [List.append_assoc, List.append_assoc]
    exact isGap.startsApart fun _ => startsApart_cons.mpr rfl

/-- What the grammar derives is read as what it is derived from, up to the white space behind. -/
theorem Spells.read {form : Form} (spells : Spells text form) (engine : Engine) :
    ∃ after, IsGap after ∧ readType engine (skipSpace text) = some (form.type engine, after) := by
  cases spells with
  | @declaration before name brackets sign after arguments unsigned opens isName argued signed closes =>
    refine ⟨after, closes, ?_⟩
    have nameChars : ∀ char ∈ name, isNameChar char = true := fun char membership =>
      isNameChar_iff.mpr (isName.chars char membership)
    have nameEnds := argued.startsApart (signed.startsApart closes)
    have begins : StartsApart isSpace (name ++ (brackets ++ (sign ++ after))) := by
      obtain ⟨first, others, rfl⟩ := List.exists_cons_of_ne_nil isName.present
      exact startsApart_cons.mpr (not_isSpace_of_isNameChar (nameChars first List.mem_cons_self))
    rw [opens.skipSpace, skipSpace_of_apart begins, readType]
    simp only [takeWhile_append_apart nameChars nameEnds, dropWhile_append_apart nameChars nameEnds,
      argued.next (signed.noBracket closes), signed.next closes]
    rw [if_neg (by simpa using isName.present), ← Form.type_eq]

/-! ### What is read is spelled -/

/-- A reader takes off what spells a value, with white space in front. -/
def TakesOff (item : Reader α) (spelling : List Char → α → Prop) : Prop :=
  ∀ {text value rest}, item text = some (value, rest) →
    ∃ gap spelled, IsGap gap ∧ spelling spelled value ∧ text = gap ++ (spelled ++ rest)

theorem takesOff_readNumber : TakesOff readNumber SpellsNumber := by
  intro text number rest isRead
  obtain ⟨⟨amount, left⟩, isWhole, same⟩ := Option.bind_eq_some_iff.mp isRead
  dsimp only at same
  split at same
  · next fits =>
    obtain ⟨rfl, rfl⟩ := Prod.mk.inj (Option.some.inj same)
    obtain ⟨run, present, digits, value, split⟩ := Reader.wholeNumber_takes isWhole
    obtain ⟨gap, isGap, isText⟩ := exists_gap text
    exact ⟨gap, run, isGap,
      ⟨present, fun char membership => isDigit_iff.mp (digits char membership), value, fits⟩,
      by rw [← split, ← isText]⟩
  · cases same

theorem takesOff_readLabel : TakesOff readLabel SpellsLabel := by
  intro text label rest isRead
  obtain ⟨gap, isGap, isText⟩ := exists_gap text
  unfold readLabel at isRead
  split at isRead
  · next inside opened =>
    obtain ⟨⟨content, left⟩, isBody, same⟩ := Option.map_eq_some_iff.mp isRead
    obtain ⟨rfl, rfl⟩ := Prod.mk.inj same
    rw [labelBody_eq] at isBody
    refine ⟨gap, _, isGap, rfl, ?_⟩
    rw [isText, opened, Quoted.eq_doubled_of_body isBody, String.toList_ofList]
    simp
  · cases isRead

theorem readComma_takes {text rest : List Char} (isRead : readComma text = some ((), rest)) :
    ∃ before after, IsGap before ∧ IsGap after ∧ text = before ++ ',' :: (after ++ rest) := by
  obtain ⟨before, isBefore, isText⟩ := exists_gap text
  unfold readComma at isRead
  split at isRead
  · next behind opened =>
    obtain ⟨_, rfl⟩ := Prod.mk.inj (Option.some.inj isRead)
    obtain ⟨after, isAfter, isBehind⟩ := exists_gap behind
    exact ⟨before, after, isBefore, isAfter, by rw [← isBehind, ← opened, ← isText]⟩
  · cases isRead

/-- White space in front of a list belongs to it. -/
theorem SpellsItems.behind {values : List α} (isGap : IsGap gap)
    (spells : SpellsItems spelling text values) : SpellsItems spelling (gap ++ text) values := by
  cases spells with
  | last opens spelled closes =>
    rw [← List.append_assoc, ← List.append_assoc]
    exact .last (isGap.append opens) spelled closes
  | more opens spelled closes further =>
    rw [← List.append_assoc, ← List.append_assoc, ← List.append_assoc]
    exact .more (isGap.append opens) spelled closes further

/-- An item and what is read behind it are a list. -/
theorem furtherItems_takes (takes : TakesOff item spelling) {bound : Nat} {spelled : List Char}
    {value : α} {values : List α} (isItem : spelling spelled value)
    (areRead : furtherItems item bound text = (values, rest)) :
    ∃ list, SpellsItems spelling list (value :: values) ∧ spelled ++ text = list ++ rest := by
  have noGap : IsGap [] := List.forall_mem_nil _
  have alone : SpellsItems spelling spelled [value] := by
    simpa using SpellsItems.last noGap isItem noGap
  induction bound generalizing text values spelled value with
  | zero =>
    obtain ⟨rfl, rfl⟩ := Prod.mk.inj areRead
    exact ⟨spelled, alone, rfl⟩
  | succ bound inductionHypothesis =>
    rw [furtherItems] at areRead
    split at areRead
    · obtain ⟨rfl, rfl⟩ := Prod.mk.inj areRead
      exact ⟨spelled, alone, rfl⟩
    · next next left isRead =>
      obtain ⟨⟨⟨⟩, afterComma⟩, isComma, isNext⟩ := Option.bind_eq_some_iff.mp isRead
      obtain ⟨before, after, isBefore, isAfter, rfl⟩ := readComma_takes isComma
      obtain ⟨gap, nextSpelled, isGap, isNextItem, rfl⟩ := takes isNext
      obtain ⟨rfl, rfl⟩ := Prod.mk.inj areRead
      obtain ⟨list, further, same⟩ := inductionHypothesis isNextItem rfl
        (by simpa using SpellsItems.last noGap isNextItem noGap)
      refine ⟨_, SpellsItems.more noGap isItem isBefore (further.behind (isAfter.append isGap)), ?_⟩
      rw [same]
      simp

theorem readItems_takes (takes : TakesOff item spelling) {values : List α}
    (areRead : readItems item text = some (values, rest)) :
    ∃ list, SpellsItems spelling list values ∧ text = list ++ rest := by
  obtain ⟨⟨first, behind⟩, isFirst, same⟩ := Option.bind_eq_some_iff.mp areRead
  obtain ⟨rfl, rfl⟩ := Prod.mk.inj (Option.some.inj same)
  obtain ⟨gap, spelled, isGap, isItem, rfl⟩ := takes isFirst
  obtain ⟨list, spells, split⟩ := furtherItems_takes takes isItem rfl
  exact ⟨gap ++ list, spells.behind isGap, by rw [split, List.append_assoc]⟩

/-- White space behind a list belongs to it. -/
theorem SpellsItems.before {values : List α} {after : List Char}
    (spells : SpellsItems spelling text values) (isGap : IsGap after) :
    SpellsItems spelling (text ++ after) values := by
  induction spells with
  | last opens spelled closes =>
    rw [List.append_assoc]
    exact .last opens spelled (closes.append isGap)
  | more opens spelled closes _ inductionHypothesis =>
    rw [List.append_assoc, List.cons_append]
    exact .more opens spelled closes inductionHypothesis

theorem SpellsArguments.before {arguments : Arguments} {after : List Char}
    (spells : SpellsArguments text arguments) (isGap : IsGap after) :
    SpellsArguments (text ++ after) arguments := by
  cases spells with
  | numbers spells => exact .numbers (spells.before isGap)
  | labels spells => exact .labels (spells.before isGap)

theorem readArgumentList_takes {arguments : Arguments}
    (isRead : readArgumentList text = some (arguments, rest)) :
    ∃ list, SpellsArguments list arguments ∧ text = list ++ rest := by
  rw [readArgumentList, Option.orElse_eq_orElse, Option.orElse_eq_or, Option.or_eq_some_iff] at isRead
  rcases isRead with numbers | ⟨_, labels⟩
  · obtain ⟨⟨values, _⟩, areRead, same⟩ := Option.map_eq_some_iff.mp numbers
    obtain ⟨rfl, rfl⟩ := Prod.mk.inj same
    obtain ⟨list, spells, split⟩ := readItems_takes takesOff_readNumber areRead
    exact ⟨list, .numbers spells, split⟩
  · obtain ⟨⟨values, _⟩, areRead, same⟩ := Option.map_eq_some_iff.mp labels
    obtain ⟨rfl, rfl⟩ := Prod.mk.inj same
    obtain ⟨list, spells, split⟩ := readItems_takes takesOff_readLabel areRead
    exact ⟨list, .labels spells, split⟩

theorem readArguments_takes {arguments : Arguments}
    (isRead : readArguments text = some (arguments, rest)) :
    ∃ brackets, SpellsBrackets brackets (some arguments) ∧ text = brackets ++ rest := by
  obtain ⟨gap, isGap, isText⟩ := exists_gap text
  unfold readArguments at isRead
  split at isRead
  · next inside opened =>
    obtain ⟨⟨found, behind⟩, isList, closing⟩ := Option.bind_eq_some_iff.mp isRead
    dsimp only at closing
    split at closing
    · next left closed =>
      obtain ⟨rfl, rfl⟩ := Prod.mk.inj (Option.some.inj closing)
      obtain ⟨list, spells, rfl⟩ := readArgumentList_takes isList
      obtain ⟨after, isAfter, isBehind⟩ := exists_gap behind
      refine ⟨_, .present isGap (spells.before isAfter), ?_⟩
      rw [isText, opened, isBehind, closed]
      simp
    · cases closing
  · cases isRead

theorem nextArguments_takes (text : List Char) :
    ∃ brackets, SpellsBrackets brackets (nextArguments text).1 ∧
      text = brackets ++ (nextArguments text).2 := by
  unfold nextArguments
  cases isRead : readArguments text with
  | none => exact ⟨[], .absent, rfl⟩
  | some read => exact readArguments_takes isRead

theorem nextUnsigned_takes (text : List Char) :
    ∃ sign, SpellsSign sign (nextUnsigned text).1 ∧ text = sign ++ (nextUnsigned text).2 := by
  obtain ⟨gap, isGap, isText⟩ := exists_gap text
  unfold nextUnsigned readUnsigned
  by_cases isWord : (skipSpace text).length < text.length ∧
      ((skipSpace text).take 8).map Char.toLower = unsignedWord
  · rw [if_pos isWord]
    refine ⟨gap ++ (skipSpace text).take 8, .present isGap ?_ isWord.2, ?_⟩
    · rintro rfl
      rw [List.nil_append] at isText
      exact absurd isWord.1 (by rw [← isText]; exact Nat.lt_irrefl _)
    · rw [List.append_assoc, List.take_append_drop, ← isText]
  · rw [if_neg isWord]
    exact ⟨[], .absent, rfl⟩

/-- What is read, with nothing but white space left, is derived by the grammar. -/
theorem spells_of_readType {engine : Engine} {type : ColumnType}
    (isRead : readType engine (skipSpace text) = some (type, rest)) (closes : IsGap rest) :
    ∃ form, Spells text form ∧ form.type engine = type := by
  obtain ⟨before, opens, isText⟩ := exists_gap text
  unfold readType at isRead
  generalize skipSpace text = begun at isRead isText
  by_cases nameless : (begun.takeWhile isNameChar).isEmpty
  · rw [if_pos nameless] at isRead
    cases isRead
  · rw [if_neg nameless] at isRead
    have isName : IsName (begun.takeWhile isNameChar) :=
      ⟨fun noName => nameless (List.isEmpty_iff.mpr noName), fun char membership =>
        isNameChar_iff.mp (List.mem_takeWhile_imp membership)⟩
    obtain ⟨brackets, argued, behindName⟩ := nextArguments_takes (begun.dropWhile isNameChar)
    generalize nextArguments (begun.dropWhile isNameChar) = read at isRead argued behindName
    obtain ⟨arguments, behindArguments⟩ := read
    obtain ⟨sign, signed, isBehind⟩ := nextUnsigned_takes behindArguments
    dsimp only at isRead argued behindName
    generalize nextUnsigned behindArguments = read at isRead signed isBehind
    obtain ⟨unsigned, left⟩ := read
    obtain ⟨rfl, rfl⟩ := Prod.mk.inj (Option.some.inj isRead)
    refine ⟨⟨_, arguments, unsigned⟩, ?_, (Form.type_eq engine ⟨_, _, _⟩).symm⟩
    have split : text = before ++ (begun.takeWhile isNameChar ++ (brackets ++ (sign ++ left))) := by
      rw [← isBehind, ← behindName, List.takeWhile_append_dropWhile, ← isText]
    rw [split]
    exact .declaration opens isName argued signed closes

end Declaration

namespace ColumnType

open Declaration

/-- A text is accepted as a declaration exactly if the grammar derives it, and is then read as the
type that its form declares: the name in lower case, the labels as they are without their quotes,
and without a sign exactly if the word for that stands there. -/
theorem parse_eq_ok_iff_spells (engine : Engine) (text : String) (type : ColumnType) :
    parse engine text = .ok type ↔ ∃ form, Spells text.toList form ∧ form.type engine = type := by
  rw [parse_eq_ok_iff]
  constructor
  · rintro ⟨left, isRead, noneLeft⟩
    obtain ⟨gap, isGap, isLeft⟩ := exists_gap left
    rw [noneLeft, List.append_nil] at isLeft
    exact spells_of_readType isRead (isLeft ▸ isGap)
  · rintro ⟨form, spells, rfl⟩
    obtain ⟨after, isGap, isRead⟩ := spells.read engine
    exact ⟨after, isRead, isGap.skipSpace_self⟩

example : parse .mySql " Enum ( 'it\x27's' ,'no')\tUNSIGNED" =
    .ok { engine := .mySql, name := "enum", unsigned := true, labels := ["it's", "no"] } := rfl

end ColumnType

end RelationalAccess
