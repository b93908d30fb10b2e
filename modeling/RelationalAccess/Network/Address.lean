import RelationalAccess.Number.Numeral

/-!
Network addresses of versions 4 and 6, with their text. An address of version 6
is written with its longest run of zero groups left out, the first of equally
long ones; one that maps an address of version 4 shows that address.
-/

namespace RelationalAccess

/-- A network address: four octets, or eight groups of sixteen bits. -/
inductive Address where
  | v4 (octets : Vector UInt8 4)
  | v6 (groups : Vector UInt16 8)
  deriving DecidableEq

namespace Address

def octetsText (octets : List UInt8) : List Char :=
  ((octets.map fun octet => Numeral.decimal octet.toNat).intersperse ['.']).flatten

def groupsText (groups : List UInt16) : List Char :=
  ((groups.map fun group => Numeral.hexadecimal group.toNat).intersperse [':']).flatten

/-- A run of zero groups: where it starts and how long it is. -/
structure ZeroRun where
  start : Nat
  length : Nat

/-- The longest run of zero groups so far, and the run that ends here. -/
def zeroRuns (groups : List UInt16) : ZeroRun × ZeroRun :=
  groups.zipIdx.foldl
    (fun (longest, current) (group, position) =>
      if group = 0 then
        let current : ZeroRun :=
          if current.length = 0 then ⟨position, 1⟩ else ⟨current.start, current.length + 1⟩
        (if longest.length < current.length then current else longest, current)
      else (longest, ⟨0, 0⟩))
    (⟨0, 0⟩, ⟨0, 0⟩)

/-- The octets of the address of version 4 that the groups map, if they map one. -/
def mapped? : List UInt16 → Option (List UInt8)
  | [0, 0, 0, 0, 0, 0xffff, high, low] =>
    some [UInt8.ofNat (high.toNat / 256), UInt8.ofNat high.toNat, UInt8.ofNat (low.toNat / 256),
      UInt8.ofNat low.toNat]
  | _ => none

/-- Groups with their longest run of two or more zeros written as a pair of colons. -/
def compressedText (groups : List UInt16) : List Char :=
  let longest := (zeroRuns groups).1
  if 1 < longest.length then
    groupsText (groups.take longest.start) ++ ':' :: ':' ::
      groupsText (groups.drop (longest.start + longest.length))
  else groupsText groups

def text : Address → String
  | .v4 octets => String.ofList (octetsText octets.toList)
  | .v6 groups =>
    match mapped? groups.toList with
    | some octets =>
      String.ofList ([':', ':', 'f', 'f', 'f', 'f', ':'] ++ octetsText octets)
    | none => String.ofList (compressedText groups.toList)

end Address

end RelationalAccess
