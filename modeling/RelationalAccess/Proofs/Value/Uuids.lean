import RelationalAccess.Proofs.Text.Readers
import RelationalAccess.Uuid

/-!
Identifiers are read back from their octets, and from their text with its hyphens.
-/

namespace RelationalAccess

namespace Uuid

/-- Octets are read back from their digits. -/
theorem octetsOfDigits?_digits (octets : List UInt8) :
    octetsOfDigits? (digits octets) = some octets := by
  induction octets with
  | nil => rfl
  | cons octet rest inductionHypothesis =>
    have small := octet.toNat_lt
    have high := Numeral.hexDigit?_digitChar (show octet.toNat / 16 < 16 by omega)
    have low := Numeral.hexDigit?_digitChar (show octet.toNat % 16 < 16 by omega)
    have begins : digits (octet :: rest) = (octet.toNat / 16).digitChar ::
        (octet.toNat % 16).digitChar :: digits rest := by
      rw [digits, List.flatMap_cons, Numeral.hexadecimalPadded_two small]
      rfl
    rw [begins, octetsOfDigits?, high, low, inductionHypothesis]
    show some (UInt8.ofNat (16 * (octet.toNat / 16) + octet.toNat % 16) :: rest) = _
    rw [Nat.div_add_mod, UInt8.ofNat_toNat]

theorem length_digits (octets : List UInt8) : (digits octets).length = 2 * octets.length := by
  induction octets with
  | nil => rfl
  | cons octet rest inductionHypothesis =>
    have two : digits (octet :: rest) =
        Numeral.hexadecimalPadded 2 octet.toNat ++ digits rest := List.flatMap_cons
    rw [two, Numeral.hexadecimalPadded_two octet.toNat_lt, List.length_append, inductionHypothesis,
      List.length_cons]
    simp only [List.length_cons, List.length_nil]
    omega

theorem ofPlain?_digits (uuid : Uuid) : ofPlain? (digits uuid.octets) = some uuid := by
  rw [ofPlain?, octetsOfDigits?_digits]
  exact dif_pos uuid.length_octets

theorem ofOctets?_octets (uuid : Uuid) : ofOctets? uuid.octets = some uuid :=
  dif_pos uuid.length_octets

/-- Hyphens behind the groups of digits are left out. -/
theorem ofHyphenated?_groups {first second third fourth : List Char} (fifth : List Char)
    (eight : first.length = 8) (four : second.length = 4) (fourAgain : third.length = 4)
    (lastFour : fourth.length = 4) :
    ofHyphenated? (first ++ '-' :: second ++ '-' :: third ++ '-' :: fourth ++ '-' :: fifth) =
      ofPlain? (first ++ second ++ third ++ fourth ++ fifth) := by
  generalize written :
    first ++ '-' :: second ++ '-' :: third ++ '-' :: fourth ++ '-' :: fifth = text
  have places : text[8]? = some '-' ∧ text[13]? = some '-' ∧ text[18]? = some '-' ∧
      text[23]? = some '-' := by
    simp [← written, List.getElem?_append, *]
  rw [ofHyphenated?, if_pos places, ← written]
  simp (disch := omega) [List.drop_append, List.drop_of_length_le, *]

/-- An identifier is read back from its text. -/
theorem ofText?_text (uuid : Uuid) : ofText? uuid.text = some uuid := by
  let part (first count : Nat) := digits ((uuid.octets.drop first).take count)
  have length (first count : Nat) (inside : first + count ≤ 16) :
      (part first count).length = 2 * count := by
    rw [length_digits, List.length_take, List.length_drop, uuid.length_octets]
    omega
  have whole : part 0 4 ++ part 4 2 ++ part 6 2 ++ part 8 2 ++ part 10 6 = digits uuid.octets := by
    have octets := uuid.length_octets
    simp only [part, digits, ← List.flatMap_append, List.drop_zero, ← List.take_add]
    rw [List.take_of_length_le (by omega)]
  have hyphenated := ofHyphenated?_groups (part 10 6) (length 0 4 (by decide))
    (length 4 2 (by decide)) (length 6 2 (by decide)) (length 8 2 (by decide))
  rw [whole, ofPlain?_digits] at hyphenated
  have written : uuid.text.toList = part 0 4 ++ '-' :: part 4 2 ++ '-' :: part 6 2 ++
      '-' :: part 8 2 ++ '-' :: part 10 6 := String.toList_ofList
  have count : uuid.text.toList.length = 36 := by
    rw [written]
    simp [length]
  rw [ofText?]
  simp only [count]
  rw [written, hyphenated]

end Uuid
end RelationalAccess
