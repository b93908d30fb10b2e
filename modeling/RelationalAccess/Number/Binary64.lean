/-!
Doubles as the words that hold them. Two doubles are the same exactly if their
bits agree, so a not-a-number equals itself and the two zeros differ.
-/

namespace RelationalAccess

/-- A double-precision number, told apart by its bits. -/
structure Binary64 where
  bits : UInt64
  deriving DecidableEq, Inhabited

namespace Binary64

/-- What the bits of a double stand for: a finite one is `significand · 2 ^ exponent`. -/
inductive Magnitude where
  | notANumber
  | infinite
  | finite (significand : Nat) (exponent : Int)
  deriving DecidableEq

def isNegative (number : Binary64) : Bool := decide (Nat.pow 2 63 ≤ number.bits.toNat)

def exponentField (number : Binary64) : Nat := number.bits.toNat / Nat.pow 2 52 % Nat.pow 2 11

def fraction (number : Binary64) : Nat := number.bits.toNat % Nat.pow 2 52

/-- The value of a double without its sign. -/
def magnitude (number : Binary64) : Magnitude :=
  if number.exponentField = Nat.pow 2 11 - 1 then
    if number.fraction = 0 then .infinite else .notANumber
  else if number.exponentField = 0 then .finite number.fraction (-1074)
  else .finite (Nat.pow 2 52 + number.fraction) (Int.ofNat number.exponentField - 1075)

/-- The bits of the double nearest to a positive number; of two equally near
ones the one whose last bit is zero. A carry out of the significand moves into
the exponent. -/
def positiveBits (number : Nat) : Nat :=
  let length := number.log2
  let significand :=
    if length ≤ 52 then number * Nat.pow 2 (52 - length)
    else
      let unit := Nat.pow 2 (length - 52)
      let quotient := number / unit
      let remainder := number % unit
      if unit < 2 * remainder ∨ (unit = 2 * remainder ∧ quotient % 2 = 1) then quotient + 1
      else quotient
  (length + 1023) * Nat.pow 2 52 + (significand - Nat.pow 2 52)

/-- The double nearest to an integer that has at most 64 bits. -/
def ofInt (number : Int) : Binary64 :=
  if number = 0 then ⟨0⟩
  else
    let bits := positiveBits number.natAbs
    ⟨UInt64.ofNat (if number < 0 then Nat.pow 2 63 + bits else bits)⟩

def ofFloat (number : Float) : Binary64 := ⟨number.toBits⟩

end Binary64

end RelationalAccess
