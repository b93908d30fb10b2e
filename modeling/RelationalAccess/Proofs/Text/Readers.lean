import RelationalAccess.Text.Quoted
import RelationalAccess.Text.Reader
import Mathlib.Data.List.Basic
import Mathlib.Data.List.TakeWhile

/-!
What readers make of the texts that they are meant for, whatever stands behind these: runs of
characters of a kind, quotations, and numerals, which are read as the numbers that they were
written for.
-/

namespace RelationalAccess

theorem isAlpha_iff {char : Char} : char.isAlpha = true ↔
    'A' ≤ char ∧ char ≤ 'Z' ∨ 'a' ≤ char ∧ char ≤ 'z' := by
  have upper : char.isUpper = true ↔ 'A' ≤ char ∧ char ≤ 'Z' := decide_eq_true_iff
  have lower : char.isLower = true ↔ 'a' ≤ char ∧ char ≤ 'z' :=
    Bool.and_eq_true_iff.trans (and_congr decide_eq_true_iff decide_eq_true_iff)
  exact Bool.or_eq_true_iff.trans (or_congr upper lower)

theorem isDigit_iff {char : Char} : char.isDigit = true ↔ '0' ≤ char ∧ char ≤ '9' :=
  Bool.and_eq_true_iff.trans (and_congr decide_eq_true_iff decide_eq_true_iff)

theorem isAlphanum_iff {char : Char} : char.isAlphanum = true ↔
    ('A' ≤ char ∧ char ≤ 'Z' ∨ 'a' ≤ char ∧ char ≤ 'z') ∨ '0' ≤ char ∧ char ≤ '9' :=
  Bool.or_eq_true_iff.trans (or_congr isAlpha_iff isDigit_iff)

/-- A text does not begin with a character of a kind. -/
def StartsApart (kind : Char → Bool) (text : List Char) : Prop :=
  ∀ char ∈ text.head?, kind char = false

@[simp] theorem StartsApart.nil (kind : Char → Bool) : StartsApart kind [] := by
  simp [StartsApart]

@[simp] theorem startsApart_cons {kind : Char → Bool} {char : Char} {rest : List Char} :
    StartsApart kind (char :: rest) ↔ kind char = false := by
  simp [StartsApart]

variable {kind : Char → Bool} {text rest : List Char}

/-- Characters of a kind are all taken, up to the first that is not of that kind. -/
theorem takeWhile_append_apart (each : ∀ char ∈ text, kind char = true)
    (ended : StartsApart kind rest) : (text ++ rest).takeWhile kind = text := by
  rw [List.takeWhile_append_of_pos each]
  cases rest with
  | nil => rw [List.takeWhile_nil, List.append_nil]
  | cons char further =>
    rw [List.takeWhile_cons_of_neg (by simp [startsApart_cons.mp ended]), List.append_nil]

theorem dropWhile_append_apart (each : ∀ char ∈ text, kind char = true)
    (ended : StartsApart kind rest) : (text ++ rest).dropWhile kind = rest := by
  rw [List.dropWhile_append_of_pos each]
  cases rest with
  | nil => rfl
  | cons char further => exact List.dropWhile_cons_of_neg (by simp [startsApart_cons.mp ended])

theorem takeWhile_of_apart (apart : StartsApart kind text) : text.takeWhile kind = [] :=
  takeWhile_append_apart (List.forall_mem_nil (kind · = true)) apart

theorem dropWhile_of_apart (apart : StartsApart kind text) : text.dropWhile kind = text :=
  dropWhile_append_apart (List.forall_mem_nil (kind · = true)) apart

theorem StartsApart.take (apart : StartsApart kind text) (count : Nat) :
    StartsApart kind (text.take count) := by
  intro char first
  rw [List.head?_take] at first
  split at first
  · cases first
  · exact apart char first

theorem drop_length_takeWhile (kind : Char → Bool) (text : List Char) :
    text.drop (text.takeWhile kind).length = text.dropWhile kind := by
  have parted : text.takeWhile kind ++ text.dropWhile kind = text :=
    List.takeWhile_append_dropWhile
  calc text.drop (text.takeWhile kind).length
      = (text.takeWhile kind ++ text.dropWhile kind).drop (text.takeWhile kind).length := by
        rw [parted]
    _ = text.dropWhile kind := List.drop_left

theorem intercalate_cons (separator first : List Char) (others : List (List Char)) :
    separator.intercalate (first :: others) = first ++ others.flatMap (separator ++ ·) := by
  induction others generalizing first with
  | nil => simp [List.intercalate]
  | cons other further inductionHypothesis =>
    rw [List.flatMap_cons, List.append_assoc, ← inductionHypothesis]
    simp [List.intercalate]

namespace Quoted

/-- The content of a quotation, from behind its opening mark to its closing one, with what
stands behind it. A doubled mark stands for one. -/
def body (mark : Char) : List Char → Option (List Char × List Char)
  | [] => none
  | char :: rest =>
    if char = mark then
      match rest with
      | [] => some ([], [])
      | next :: further =>
        if next = mark then (body mark further).map fun (content, left) => (mark :: content, left)
        else some ([], rest)
    else (body mark rest).map fun (content, left) => (char :: content, left)

theorem body_cons_of_ne {mark char : Char} (other : char ≠ mark) :
    body mark (char :: rest) =
      (body mark rest).map fun (content, left) => (char :: content, left) := by
  rw [body.eq_def]
  exact if_neg other

theorem body_doubled {mark : Char} (content : List Char) (ended : StartsApart (· == mark) rest) :
    body mark (doubled mark content ++ mark :: rest) = some (content, rest) := by
  induction content with
  | nil =>
    cases rest with
    | nil => simp [body]
    | cons char further =>
      have other : char ≠ mark := by simpa using startsApart_cons.mp ended
      simp [body, other]
  | cons char content inductionHypothesis =>
    by_cases isMark : char = mark
    · subst isMark
      simp [body, inductionHypothesis]
    · simp [doubled, isMark, body_cons_of_ne isMark, inductionHypothesis]

/-- What is read as the content of a quotation stands there with its marks doubled, up to the
mark that closes it. -/
theorem eq_doubled_of_body {mark : Char} {content : List Char}
    (isRead : body mark text = some (content, rest)) :
    text = doubled mark content ++ mark :: rest := by
  fun_induction body mark text generalizing content with
  | case1 => cases isRead
  | case2 =>
    obtain ⟨rfl, rfl⟩ := Prod.mk.inj (Option.some.inj isRead)
    rfl
  | case3 further inductionHypothesis =>
    obtain ⟨⟨inner, left⟩, isInner, same⟩ := Option.map_eq_some_iff.mp isRead
    obtain ⟨rfl, rfl⟩ := Prod.mk.inj same
    rw [inductionHypothesis isInner, doubled_mark, List.cons_append, List.cons_append]
  | case4 next further =>
    obtain ⟨rfl, rfl⟩ := Prod.mk.inj (Option.some.inj isRead)
    rfl
  | case5 char others isOther inductionHypothesis =>
    obtain ⟨⟨inner, left⟩, isInner, same⟩ := Option.map_eq_some_iff.mp isRead
    obtain ⟨rfl, rfl⟩ := Prod.mk.inj same
    rw [inductionHypothesis isInner, doubled, if_neg isOther, List.cons_append]

end Quoted

namespace Numeral

theorem isDigit_of_mem_decimal {number : Nat} {char : Char} (membership : char ∈ decimal number) :
    char.isDigit = true :=
  Nat.isDigit_of_mem_toDigits (by decide) (by decide) membership

theorem filterMap_digit? (each : ∀ char ∈ text, char.isDigit = true) :
    text.filterMap digit? = text.map fun char => char.toNat - '0'.toNat := by
  rw [← List.filterMap_eq_map]
  exact List.filterMap_congr fun char membership => by
    simp [digit?, each char membership, Function.comp_apply]

theorem value_filterMap_digit? (each : ∀ char ∈ text, char.isDigit = true) :
    value 10 (text.filterMap digit?) = Nat.ofDigitChars 10 text 0 := by
  rw [filterMap_digit? each, value, List.foldl_map, Nat.ofDigitChars_eq_foldl]

theorem length_decimal_pos (number : Nat) : 0 < (decimal number).length := Nat.length_toDigits_pos

theorem isDigit_of_mem_decimalPadded {width number : Nat} {char : Char}
    (membership : char ∈ decimalPadded width number) : char.isDigit = true := by
  rcases List.mem_append.mp membership with filled | shown
  · rw [(List.mem_replicate.mp filled).2]
    decide
  · exact isDigit_of_mem_decimal shown

/-- Zeros in front do not change the number. -/
theorem value_decimalPadded (width number : Nat) :
    value 10 ((decimalPadded width number).filterMap digit?) = number := by
  rw [value_filterMap_digit? fun _ => isDigit_of_mem_decimalPadded, decimalPadded, padLeft,
    Nat.ofDigitChars_append, Nat.ofDigitChars_replicate_zero]
  rw [Nat.mul_zero]
  exact Nat.ofDigitChars_ten_toDigits

theorem length_decimalPadded_pos (width number : Nat) :
    0 < (decimalPadded width number).length := by
  have shown := length_decimal_pos number
  rw [decimalPadded, padLeft, List.length_append]
  omega

theorem length_decimalPadded {width number : Nat} (positive : 0 < width)
    (fits : number < Nat.pow 10 width) : (decimalPadded width number).length = width := by
  have short : (decimal number).length ≤ width :=
    (Nat.length_toDigits_le_iff (by decide) positive).mpr fits
  rw [decimalPadded, padLeft, List.length_append, List.length_replicate]
  omega

theorem length_filterMap_digit? (each : ∀ char ∈ text, char.isDigit = true) :
    (text.filterMap digit?).length = text.length := by
  rw [filterMap_digit? each, List.length_map]

theorem hexDigit?_digitChar {digit : Nat} (small : digit < 16) :
    hexDigit? digit.digitChar = some digit :=
  (by decide : ∀ digit < 16, hexDigit? digit.digitChar = some digit) digit small

theorem hexadecimalPadded_two {octet : Nat} (small : octet < 256) :
    hexadecimalPadded 2 octet = [(octet / 16).digitChar, (octet % 16).digitChar] := by
  unfold hexadecimalPadded hexadecimal
  by_cases single : octet < 16
  · rw [Nat.toDigits_of_lt_base single, Nat.div_eq_of_lt single, Nat.mod_eq_of_lt single]
    rfl
  · rw [Nat.toDigits_of_base_le (by decide) (by omega), Nat.toDigits_of_lt_base (by omega)]
    rfl

theorem value_hexadecimal (number : Nat) :
    value 16 ((hexadecimal number).filterMap hexDigit?) = number := by
  unfold hexadecimal
  induction number using Nat.strongRecOn with
  | ind number inductionHypothesis =>
    by_cases single : number < 16
    · rw [Nat.toDigits_of_lt_base single, List.filterMap_cons_some (hexDigit?_digitChar single)]
      simp [value]
    · have last := hexDigit?_digitChar (Nat.mod_lt number (by decide : 0 < 16))
      rw [Nat.toDigits_of_base_le (by decide) (by omega), List.filterMap_append,
        List.filterMap_cons_some last, List.filterMap_nil, value_append_one,
        inductionHypothesis (number / 16) (by omega)]
      exact Nat.div_add_mod number 16

theorem isHexDigit_of_mem_hexadecimal {number : Nat} {char : Char}
    (membership : char ∈ hexadecimal number) : (hexDigit? char).isSome = true := by
  unfold hexadecimal at membership
  induction number using Nat.strongRecOn with
  | ind number inductionHypothesis =>
    by_cases single : number < 16
    · rw [Nat.toDigits_of_lt_base single, List.mem_singleton] at membership
      rw [membership, hexDigit?_digitChar single]
      rfl
    · rw [Nat.toDigits_of_base_le (by decide) (by omega), List.mem_append, List.mem_singleton]
        at membership
      rcases membership with former | last
      · exact inductionHypothesis (number / 16) (by omega) former
      · rw [last, hexDigit?_digitChar (Nat.mod_lt number (by decide))]
        rfl

theorem length_hexadecimal_le {width number : Nat} (positive : 0 < width)
    (fits : number < Nat.pow 16 width) : (hexadecimal number).length ≤ width :=
  (Nat.length_toDigits_le_iff (by decide) positive).mpr fits

end Numeral

namespace Reader

open Numeral

/-- What is read first is taken off, and the rest is for the reader that follows. -/
theorem bind_of_read {first : Reader α} {next : α → Reader β} {value : α}
    (isRead : first text = some (value, rest)) : (first >>= next) text = next value rest := by
  show (first text).bind _ = _
  rw [isRead]
  rfl

theorem bind_of_none {first : Reader α} {next : α → Reader β} (isRead : first text = none) :
    (first >>= next) text = none := by
  show (first text).bind _ = _
  rw [isRead]
  rfl

/-- A text that is read to its end gives what is read. -/
theorem run?_eq {reader : Reader α} {text : String} {result : Option α}
    (isRead : reader text.toList = result.map (·, [])) : reader.run? text = result := by
  cases result with
  | none =>
    rw [run?, bind_of_none isRead]
    rfl
  | some value =>
    rw [run?, bind_of_read isRead]
    rfl

theorem run?_of_read {reader : Reader α} {text : String} {value : α}
    (isRead : reader text.toList = some (value, [])) : reader.run? text = some value :=
  run?_eq isRead

@[simp] theorem exactly_cons (char : Char) (rest : List Char) :
    exactly char (char :: rest) = some ((), rest) := if_pos rfl

theorem exactly_of_apart {expected : Char} (apart : StartsApart (· == expected) text) :
    exactly expected text = none := by
  cases text with
  | nil => rfl
  | cons char further => exact if_neg (by simpa using startsApart_cons.mp apart)

/-- A run of digits is read as a whole if its length is allowed and no further digit could be
read. -/
theorem digits_append {least most : Nat} (each : ∀ char ∈ text, char.isDigit = true)
    (enough : least ≤ text.length) (fits : text.length ≤ most)
    (ended : text.length = most ∨ StartsApart Char.isDigit rest) :
    digits least most (text ++ rest) = some (text.filterMap digit?, rest) := by
  have run : ((text ++ rest).take most).takeWhile Char.isDigit = text := by
    rw [List.take_append, List.take_of_length_le fits]
    refine takeWhile_append_apart each ?_
    rcases ended with full | apart
    · simp [full]
    · exact apart.take _
  rw [digits, run, if_neg (by omega), List.drop_left]

theorem number_append {least most : Nat} (each : ∀ char ∈ text, char.isDigit = true)
    (enough : least ≤ text.length) (fits : text.length ≤ most)
    (ended : text.length = most ∨ StartsApart Char.isDigit rest) :
    number least most (text ++ rest) = some (value 10 (text.filterMap digit?), rest) := by
  rw [number, bind_of_read (digits_append each enough fits ended)]
  rfl

theorem number_of_apart {least most : Nat} (positive : 0 < least)
    (apart : StartsApart Char.isDigit text) : number least most text = none := by
  have none : digits least most text = none := by
    rw [digits, takeWhile_of_apart (apart.take most)]
    exact if_pos positive
  rw [number, bind_of_none none]

theorem wholeNumber_append (each : ∀ char ∈ text, char.isDigit = true) (present : 0 < text.length)
    (ended : StartsApart Char.isDigit rest) :
    wholeNumber (text ++ rest) = some (value 10 (text.filterMap digit?), rest) :=
  number_append each present (by simp) (.inr ended)

/-- A whole number is read off a run of digits, which stand in front of what is left. -/
theorem wholeNumber_takes {amount : Nat} (isRead : wholeNumber text = some (amount, rest)) :
    ∃ run, run ≠ [] ∧ (∀ char ∈ run, char.isDigit = true) ∧
      Nat.ofDigitChars 10 run 0 = amount ∧ text = run ++ rest := by
  have each : ∀ char ∈ text.takeWhile Char.isDigit, char.isDigit = true :=
    fun char membership => List.mem_takeWhile_imp membership
  obtain ⟨⟨values, behind⟩, areDigits, same⟩ := Option.bind_eq_some_iff.mp isRead
  obtain ⟨rfl, rfl⟩ := Prod.mk.inj (Option.some.inj same)
  unfold digits at areDigits
  rw [List.take_length] at areDigits
  dsimp only at areDigits
  split at areDigits
  · cases areDigits
  · next enough =>
    obtain ⟨rfl, rfl⟩ := Prod.mk.inj (Option.some.inj areDigits)
    refine ⟨_, List.ne_nil_of_length_pos (Nat.not_lt.mp enough), each,
      (value_filterMap_digit? each).symm, ?_⟩
    rw [drop_length_takeWhile, List.takeWhile_append_dropWhile]

theorem wholeNumber_decimalPadded (width amount : Nat) (ended : StartsApart Char.isDigit rest) :
    wholeNumber (decimalPadded width amount ++ rest) = some (amount, rest) := by
  rw [wholeNumber_append (fun _ => isDigit_of_mem_decimalPadded)
    (length_decimalPadded_pos width amount) ended, value_decimalPadded]

/-- A field of fixed width is read whatever follows it. -/
theorem number_decimalPadded {least width amount : Nat} (positive : 0 < width)
    (allowed : least ≤ width) (fits : amount < Nat.pow 10 width) :
    number least width (decimalPadded width amount ++ rest) = some (amount, rest) := by
  have length := length_decimalPadded positive fits
  rw [number_append (fun _ => isDigit_of_mem_decimalPadded) (by omega) (by omega) (.inl length),
    value_decimalPadded]

end Reader

end RelationalAccess
