/-!
White space: the characters with the Unicode property of that name.
-/

namespace RelationalAccess.Blank

/-- The code points of white space, as inclusive ranges in ascending order. -/
def ranges : List (Nat × Nat) :=
  [(0x9, 0xD), (0x20, 0x20), (0x85, 0x85), (0xA0, 0xA0), (0x1680, 0x1680), (0x2000, 0x200A),
    (0x2028, 0x2029), (0x202F, 0x202F), (0x205F, 0x205F), (0x3000, 0x3000)]

/-- Whether a character is white space. -/
def isBlank (char : Char) : Bool :=
  ranges.any fun (first, last) => decide (first ≤ char.toNat) && decide (char.toNat ≤ last)

/-- The text from its first character that is not white space. -/
def skip (text : List Char) : List Char := text.dropWhile isBlank

end RelationalAccess.Blank
