import RelationalAccess.Proofs.Text.Readers
import RelationalAccess.Schema.Declaration
import Mathlib.Data.List.Forall2

/-!
The parts of a declaration: the characters of names, and the arguments in parentheses, which
are read back from what they are written as, whatever their labels hold.
-/

namespace RelationalAccess

namespace Declaration

theorem isAscii_of_isNameChar {char : Char} (isName : isNameChar char = true) :
    char.toNat < 128 := by
  have below {last : Char} (ascii : last.toNat < 128) (upTo : char.val ≤ last.val) :
      char.toNat < 128 :=
    Nat.lt_of_le_of_lt (UInt32.le_iff_toNat_le.mp upTo) ascii
  rcases Bool.or_eq_true_iff.mp isName with alphanum | underscore
  · rcases Bool.or_eq_true_iff.mp alphanum with alpha | digit
    · rcases Bool.or_eq_true_iff.mp alpha with upper | lower
      · exact below (by decide) (of_decide_eq_true upper).2
      · exact below (by decide) (of_decide_eq_true (Bool.and_eq_true_iff.mp lower).2)
    · exact below (by decide) (of_decide_eq_true (Bool.and_eq_true_iff.mp digit).2)
  · rw [beq_iff_eq.mp underscore]
    decide

/-- What holds of all the ASCII characters that names have holds of every character of a name. -/
theorem nameChar_forall (holds : Char → Prop)
    (each : ∀ code < 128, isNameChar (Char.ofNat code) = true → holds (Char.ofNat code))
    {char : Char} (isName : isNameChar char = true) : holds char := by
  have same := Char.ofNat_toNat char
  have now := each char.toNat (isAscii_of_isNameChar isName)
  rw [same] at now
  exact now isName

theorem isNameChar_toUpper {char : Char} (isName : isNameChar char = true) :
    isNameChar char.toUpper = true :=
  nameChar_forall (fun char => isNameChar char.toUpper = true) (by decide +kernel) isName

theorem isNameChar_toLower {char : Char} (isName : isNameChar char = true) :
    isNameChar char.toLower = true :=
  nameChar_forall (fun char => isNameChar char.toLower = true) (by decide +kernel) isName

theorem toLower_toUpper {char : Char} (isName : isNameChar char = true) :
    char.toUpper.toLower = char.toLower :=
  nameChar_forall (fun char => char.toUpper.toLower = char.toLower) (by decide +kernel)
    isName

theorem toLower_toLower {char : Char} (isName : isNameChar char = true) :
    char.toLower.toLower = char.toLower :=
  nameChar_forall (fun char => char.toLower.toLower = char.toLower) (by decide +kernel)
    isName

theorem not_isSpace_of_isNameChar {char : Char} (isName : isNameChar char = true) :
    isSpace char = false :=
  nameChar_forall (fun char => isSpace char = false) (by decide +kernel) isName

variable {text rest : List Char}

theorem skipSpace_of_apart (apart : StartsApart isSpace text) : skipSpace text = text :=
  dropWhile_of_apart apart

theorem skipSpace_cons {char : Char} (isOther : isSpace char = false) :
    skipSpace (char :: rest) = char :: rest :=
  skipSpace_of_apart (startsApart_cons.mpr isOther)

theorem skipSpace_space : skipSpace (' ' :: text) = skipSpace text := List.dropWhile_cons_of_pos rfl

theorem skipSpace_append {gap : List Char} (spaces : ∀ char ∈ gap, isSpace char = true) :
    skipSpace (gap ++ text) = skipSpace text :=
  List.dropWhile_append_of_pos spaces

/-! ### Lists -/

/-- A list goes on or ends here, perhaps after white space. -/
def EndsItem (rest : List Char) : Prop :=
  ∃ further, skipSpace rest = ',' :: further ∨ skipSpace rest = ')' :: further

/-- A list ends here, perhaps after white space. -/
def EndsList (rest : List Char) : Prop := ∃ further, skipSpace rest = ')' :: further

/-- A reader takes a value back from a text, wherever an item of a list ends. -/
structure TakesBack (item : Reader α) (written : List Char) (value : α) : Prop where
  apart : ∀ rest, StartsApart isSpace (written ++ rest)
  read : ∀ rest, EndsItem rest → item (written ++ rest) = some (value, rest)

/-- Where an item ends, no character comes next but white space and the two that end it. -/
theorem EndsItem.apart (ends : EndsItem rest) (kind : Char → Bool) (comma : kind ',' = false)
    (closing : kind ')' = false) (spaces : ∀ char, isSpace char = true → kind char = false) :
    StartsApart kind rest := by
  obtain ⟨further, ends⟩ := ends
  cases rest with
  | nil => exact .nil kind
  | cons char others =>
    refine startsApart_cons.mpr ?_
    by_cases space : isSpace char = true
    · exact spaces char space
    · rw [skipSpace_cons (Bool.not_eq_true _ ▸ space)] at ends
      rcases ends with comes | comes
      · exact (List.cons.inj comes).1 ▸ comma
      · exact (List.cons.inj comes).1 ▸ closing

theorem isSpace_forall {holds : Char → Prop} (blank : holds ' ') (tab : holds '\t')
    (line : holds '\n') (carriage : holds '\r') (char : Char) (space : isSpace char = true) :
    holds char := by
  simp only [isSpace, Bool.or_eq_true, beq_iff_eq] at space
  rcases space with ((rfl | rfl) | rfl) | rfl
  · exact blank
  · exact tab
  · exact line
  · exact carriage

section

variable {run : List Char} {number : Nat} (present : run ≠ [])
  (digits : ∀ char ∈ run, char.isDigit = true)

include present digits

theorem startsApart_digits (rest : List Char) : StartsApart isSpace (run ++ rest) := by
  obtain ⟨first, others, rfl⟩ := List.exists_cons_of_ne_nil present
  have isName : isNameChar first = true := by
    simp [isNameChar, Char.isAlphanum, digits first List.mem_cons_self]
  exact startsApart_cons.mpr (not_isSpace_of_isNameChar isName)

/-- A run of digits, perhaps with zeros in front, is read as its number, whatever its size. -/
theorem wholeNumber_digits (value : Nat.ofDigitChars 10 run 0 = number) (ends : EndsItem rest) :
    Reader.wholeNumber (skipSpace (run ++ rest)) = some (number, rest) := by
  have whole := Reader.wholeNumber_append digits (List.length_pos_of_ne_nil present)
    (ends.apart Char.isDigit rfl rfl (isSpace_forall rfl rfl rfl rfl))
  rwa [Numeral.value_filterMap_digit? digits, value,
    ← skipSpace_of_apart (startsApart_digits present digits rest)] at whole

theorem takesBack_digits (value : Nat.ofDigitChars 10 run 0 = number)
    (fits : number < Nat.pow 2 64) : TakesBack readNumber run number := by
  refine ⟨startsApart_digits present digits, fun rest ends => ?_⟩
  unfold readNumber
  rw [wholeNumber_digits present digits value ends]
  exact if_pos fits

end

theorem takesBack_number {number : Nat} (fits : number < Nat.pow 2 64) :
    TakesBack readNumber (Numeral.decimal number) number :=
  takesBack_digits (List.ne_nil_of_length_pos (Numeral.length_decimal_pos number))
    (fun _ => Numeral.isDigit_of_mem_decimal) Nat.ofDigitChars_ten_toDigits fits

/-- The content of a label is the content of the quotation that it is. -/
theorem labelBody_eq (text : List Char) : labelBody text = Quoted.body '\x27' text := by
  fun_induction labelBody text with
  | case1 => rfl
  | case2 rest inductionHypothesis => simp [Quoted.body, inductionHypothesis]
  | case3 rest alone =>
    cases rest with
    | nil => rfl
    | cons next further =>
      have other : next ≠ '\x27' := fun same => alone further rfl (same ▸ rfl)
      simp [Quoted.body, other]
  | case4 char rest _ other inductionHypothesis =>
    rw [Quoted.body_cons_of_ne other, inductionHypothesis]

theorem takesBack_label (label : String) :
    TakesBack readLabel (Quoted.enclose '\x27' label.toList) label where
  apart rest := startsApart_cons.mpr rfl
  read rest ends := by
    have body := Quoted.body_doubled label.toList
      (ends.apart (· == '\x27') rfl rfl (isSpace_forall rfl rfl rfl rfl))
    have opened : skipSpace (Quoted.enclose '\x27' label.toList ++ rest) =
        '\x27' :: (Quoted.doubled '\x27' label.toList ++ '\x27' :: rest) := by
      rw [Quoted.enclose, List.cons_append, List.cons_append, List.append_assoc]
      exact skipSpace_cons rfl
    simp only [readLabel, opened, labelBody_eq, body, Option.map_some, String.ofList_toList]

variable {α : Type} {item : Reader α} {texts : List (List Char)} {values : List α} {gap : List Char}

theorem EndsList.endsItem (ends : EndsList rest) : EndsItem rest :=
  ends.imp fun _ closed => .inr closed

theorem endsItem_separated (gap : List Char) (texts : List (List Char)) (ends : EndsList rest) :
    EndsItem (texts.flatMap (',' :: gap ++ ·) ++ rest) := by
  cases texts with
  | nil => exact ends.endsItem
  | cons text others => exact ⟨_, .inl (skipSpace_cons rfl)⟩

/-- The text of a list bounds the number of its items. -/
theorem length_le_separated (gap : List Char) (texts : List (List Char)) :
    texts.length ≤ (texts.flatMap (',' :: gap ++ ·)).length := by
  induction texts with
  | nil => simp
  | cons text others inductionHypothesis =>
    rw [List.flatMap_cons, List.length_append, List.length_cons, List.cons_append, List.length_cons]
    omega

/-- The items behind the first one are read, with any white space behind the commas. -/
theorem furtherItems_separated (spaces : ∀ char ∈ gap, isSpace char = true)
    (each : List.Forall₂ (TakesBack item) texts values) (ends : EndsList rest) {bound : Nat}
    (enough : texts.length ≤ bound) :
    furtherItems item bound (texts.flatMap (',' :: gap ++ ·) ++ rest) = (values, rest) := by
  induction each generalizing bound with
  | nil =>
    obtain ⟨further, closed⟩ := ends
    have noComma : (do readComma; item : Reader α) rest = none :=
      Reader.bind_of_none (by rw [readComma, closed]; rfl)
    cases bound with
    | zero => rfl
    | succ bound => rw [List.flatMap_nil, List.nil_append, furtherItems, noComma]
  | @cons text value others further now later inductionHypothesis =>
    cases bound with
    | zero => simp at enough
    | succ bound =>
      have endsIt := endsItem_separated gap others ends
      rw [List.flatMap_cons, List.append_assoc, List.append_assoc, furtherItems]
      generalize others.flatMap (',' :: gap ++ ·) ++ rest = behind at *
      have comma : readComma (',' :: gap ++ (text ++ behind)) = some ((), text ++ behind) := by
        simp [readComma, skipSpace_cons, isSpace, skipSpace_append spaces,
          skipSpace_of_apart (now.apart behind)]
      have first : (do readComma; item : Reader α) (',' :: gap ++ (text ++ behind)) =
          some (value, behind) :=
        (Reader.bind_of_read comma).trans (now.read behind endsIt)
      rw [first]
      simp [inductionHypothesis (Nat.le_of_succ_le_succ enough)]

theorem readItems_separated (present : texts ≠ []) (spaces : ∀ char ∈ gap, isSpace char = true)
    (each : List.Forall₂ (TakesBack item) texts values) (ends : EndsList rest) :
    readItems item ((',' :: gap).intercalate texts ++ rest) = some (values, rest) := by
  cases each with
  | nil => exact (present rfl).elim
  | @cons text value others further now later =>
    rw [intercalate_cons, List.append_assoc]
    have count : others.length ≤ (others.flatMap (',' :: gap ++ ·) ++ rest).length := by
      have each := length_le_separated gap others
      rw [List.length_append]
      omega
    rw [readItems, now.read _ (endsItem_separated gap others ends)]
    simp only [Option.bind_eq_bind, Option.bind_some, furtherItems_separated spaces later ends count]
    rfl

/-! ### Arguments -/

namespace Arguments

/-- Arguments in their parentheses. -/
def written : Arguments → List Char
  | numbers values => '(' :: ([','].intercalate (values.map Numeral.decimal) ++ [')'])
  | labels values =>
    '(' :: ([','].intercalate (values.map fun label => Quoted.enclose '\x27' label.toList) ++ [')'])

/-- Arguments that can be read: there are some, and the numbers are not too great. -/
def Readable : Arguments → Prop
  | numbers values => values ≠ [] ∧ ∀ number ∈ values, number < Nat.pow 2 64
  | labels values => values ≠ []

end Arguments

/-- A label is not read as a number. -/
theorem readItems_readNumber_label (label : String) (behind : List Char) :
    readItems readNumber (Quoted.enclose '\x27' label.toList ++ behind) = none := by
  have noDigit : Reader.wholeNumber (Quoted.enclose '\x27' label.toList ++ behind) = none :=
    Reader.bind_of_none rfl
  have apart := (takesBack_label label).apart behind
  rw [readItems, readNumber, skipSpace_of_apart apart, noDigit]
  rfl

theorem readArguments_of_list {text : List Char} {arguments : Arguments}
    (isRead : readArgumentList text = some (arguments, ')' :: rest)) :
    readArguments ('(' :: text) = some (arguments, rest) := by
  simp [readArguments, skipSpace_cons, isSpace, isRead]

theorem readArguments_written {arguments : Arguments} (readable : arguments.Readable) :
    readArguments (arguments.written ++ rest) = some (arguments, rest) := by
  have ends : EndsList (')' :: rest) := ⟨rest, skipSpace_cons rfl⟩
  cases arguments with
  | numbers values =>
    obtain ⟨present, fit⟩ := readable
    have items := readItems_separated (by simpa using present) (List.forall_mem_nil _)
      (List.forall₂_map_left_iff.mpr (List.forall₂_same.mpr fun number membership =>
        takesBack_number (fit number membership))) ends
    rw [Arguments.written, List.cons_append, List.append_assoc]
    exact readArguments_of_list (by rw [readArgumentList, List.singleton_append, items]; rfl)
  | labels values =>
    have present : values ≠ [] := readable
    have items := readItems_separated (by simpa using present) (List.forall_mem_nil _)
      (List.forall₂_map_left_iff.mpr (List.forall₂_same.mpr fun label _ => takesBack_label label))
      ends
    have noNumbers : readItems readNumber ([','].intercalate (values.map fun label =>
        Quoted.enclose '\x27' label.toList) ++ ')' :: rest) = none := by
      obtain ⟨first, others, rfl⟩ := List.exists_cons_of_ne_nil present
      rw [List.map_cons, intercalate_cons, List.append_assoc]
      exact readItems_readNumber_label first _
    rw [Arguments.written, List.cons_append, List.append_assoc]
    exact readArguments_of_list (by
      rw [readArgumentList, List.singleton_append, noNumbers, items]; rfl)

end Declaration

end RelationalAccess
