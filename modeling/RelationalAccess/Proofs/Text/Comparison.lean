import RelationalAccess.Proofs.Text.Readers

/-!
Texts compared character by character: parts of one length are compared in turn, and numerals of
one width as the numbers that they were written for.
-/

namespace RelationalAccess

/-- Comparisons agree if they agree on what is less and on what is equal. -/
theorem ordering_eq {ordering other : Ordering} (less : ordering = .lt ↔ other = .lt)
    (equal : ordering = .eq ↔ other = .eq) : ordering = other := by
  cases ordering <;> cases other <;> simp at less equal ⊢

/-- Where the first parts of two texts have one length, the rest decides only if they are equal. -/
theorem compare_append {first second firstRest secondRest : List Char}
    (length : first.length = second.length) :
    compare (first ++ firstRest) (second ++ secondRest) =
      (compare first second).then (compare firstRest secondRest) := by
  induction first generalizing second with
  | nil =>
    obtain rfl := List.length_eq_zero_iff.mp length.symm
    rfl
  | cons char chars inductionHypothesis =>
    cases second with
    | nil => cases length
    | cons other others =>
      rw [List.cons_append, List.cons_append, List.compare_cons_cons, List.compare_cons_cons,
        inductionHypothesis (Nat.succ.inj length), Ordering.then_assoc]

/-- A character that both texts begin with decides nothing. -/
theorem compare_cons_same (char : Char) (firstRest secondRest : List Char) :
    compare (char :: firstRest) (char :: secondRest) = compare firstRest secondRest := by
  rw [List.compare_cons_cons, Std.compare_self]
  rfl

namespace Numeral

/-- Digits are compared as the numbers that they stand for. -/
theorem compare_digits {first second : Char} (isDigit : first.isDigit = true)
    (otherDigit : second.isDigit = true) :
    compare first second = compare (first.toNat - '0'.toNat) (second.toNat - '0'.toNat) := by
  have least : 48 ≤ first.toNat := UInt32.le_iff_toNat_le.mp (isDigit_iff.mp isDigit).1
  have otherLeast : 48 ≤ second.toNat := UInt32.le_iff_toNat_le.mp (isDigit_iff.mp otherDigit).1
  have less : compare first second = .lt ↔ first.toNat < second.toNat :=
    compareOfLessAndEq_eq_lt.trans UInt32.lt_iff_toNat_lt
  have equal : compare first second = .eq ↔ first.toNat = second.toNat :=
    Std.compare_eq_iff_eq.trans Char.toNat_inj.symm
  have isZero : '0'.toNat = 48 := rfl
  refine ordering_eq ?_ ?_
  · rw [less, Nat.compare_eq_lt]
    omega
  · rw [equal, Nat.compare_eq_eq]
    omega

/-- The number before a digit is compared before the digit. -/
theorem compare_tens {first second digit other : Nat} (small : digit < 10)
    (otherSmall : other < 10) :
    compare (10 * first + digit) (10 * second + other) =
      (compare first second).then (compare digit other) := by
  refine ordering_eq ?_ ?_
  · rw [Ordering.then_eq_lt, Nat.compare_eq_lt, Nat.compare_eq_lt, Nat.compare_eq_lt,
      Nat.compare_eq_eq]
    omega
  · rw [Ordering.then_eq_eq, Nat.compare_eq_eq, Nat.compare_eq_eq, Nat.compare_eq_eq]
    omega

theorem digit_lt_ten {char : Char} (isDigit : char.isDigit = true) :
    char.toNat - '0'.toNat < 10 := by
  have most : char.toNat ≤ 57 := UInt32.le_iff_toNat_le.mp (isDigit_iff.mp isDigit).2
  have isZero : '0'.toNat = 48 := rfl
  omega

/-- Numbers that go on with as many digits are compared before these. -/
theorem compare_ofDigitChars {first second : List Char} (digits : ∀ char ∈ first, char.isDigit = true)
    (otherDigits : ∀ char ∈ second, char.isDigit = true) (length : first.length = second.length)
    (number other : Nat) :
    compare (Nat.ofDigitChars 10 first number) (Nat.ofDigitChars 10 second other) =
      (compare number other).then (compare first second) := by
  induction first generalizing second number other with
  | nil =>
    obtain rfl := List.length_eq_zero_iff.mp length.symm
    exact Ordering.then_eq.symm
  | cons char chars inductionHypothesis =>
    cases second with
    | nil => cases length
    | cons otherChar others =>
      obtain ⟨isDigit, digits⟩ := List.forall_mem_cons.mp digits
      obtain ⟨otherDigit, otherDigits⟩ := List.forall_mem_cons.mp otherDigits
      rw [Nat.ofDigitChars_cons, Nat.ofDigitChars_cons,
        inductionHypothesis digits otherDigits (Nat.succ.inj length),
        compare_tens (digit_lt_ten isDigit) (digit_lt_ten otherDigit), Ordering.then_assoc,
        List.compare_cons_cons, compare_digits isDigit otherDigit]

/-- Numerals of one width, before other texts, are compared as their numbers. -/
theorem compare_decimalPadded {width number other : Nat} (positive : 0 < width)
    (fits : number < Nat.pow 10 width) (otherFits : other < Nat.pow 10 width)
    (rest otherRest : List Char) :
    compare (decimalPadded width number ++ rest) (decimalPadded width other ++ otherRest) =
      (compare number other).then (compare rest otherRest) := by
  have length := (length_decimalPadded positive fits).trans
    (length_decimalPadded positive otherFits).symm
  have digits (number : Nat) (char : Char) : char ∈ decimalPadded width number →
      char.isDigit = true := isDigit_of_mem_decimalPadded
  have ofNumber (number : Nat) : Nat.ofDigitChars 10 (decimalPadded width number) 0 = number := by
    rw [← value_filterMap_digit? (digits number), value_decimalPadded]
  have compared := compare_ofDigitChars (digits number) (digits other) length 0 0
  rw [ofNumber, ofNumber, Std.compare_self] at compared
  rw [compare_append length, compared]
  rfl

end Numeral

end RelationalAccess
