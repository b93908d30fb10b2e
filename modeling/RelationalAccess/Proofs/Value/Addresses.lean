import Mathlib.Data.List.Induction
import RelationalAccess.Network.Reading
import RelationalAccess.Proofs.Text.Readers

/-!
Network addresses are read back from their texts: four octets with points between them, eight
groups, groups with a run of zeros left out, and those that show an address of version 4.
-/

namespace RelationalAccess.Address

open Numeral

variable {rest : List Char}

/-! ### Octets -/

theorem decimal_octet {octet : Nat} (fits : octet < 256) :
    ofDecimal? (decimal octet) = some octet ∧ ¬ (3 < (decimal octet).length ∨ 255 < octet ∨
      (1 < (decimal octet).length ∧ (decimal octet).head? = some '0')) :=
  (by decide +kernel : ∀ octet < 256, ofDecimal? (decimal octet) = some octet ∧
    ¬ (3 < (decimal octet).length ∨ 255 < octet ∨
      (1 < (decimal octet).length ∧ (decimal octet).head? = some '0'))) octet fits

theorem readOctet_decimal (octet : UInt8) (ended : StartsApart Char.isDigit rest) :
    readOctet (decimal octet.toNat ++ rest) = some (octet, rest) := by
  have run : (decimal octet.toNat ++ rest).takeWhile Char.isDigit = decimal octet.toNat :=
    takeWhile_append_apart (fun _ => isDigit_of_mem_decimal) ended
  obtain ⟨isNumber, allowed⟩ := decimal_octet octet.toNat_lt
  rw [readOctet, run, isNumber]
  simp only
  rw [if_neg allowed, List.drop_left, UInt8.ofNat_toNat]

theorem octetsText_four (first second third fourth : UInt8) :
    octetsText [first, second, third, fourth] = decimal first.toNat ++
      '.' :: (decimal second.toNat ++ '.' :: (decimal third.toNat ++
        '.' :: decimal fourth.toNat)) := by
  simp [octetsText]

theorem readOctets_octetsText (first second third fourth : UInt8)
    (ended : StartsApart Char.isDigit rest) :
    readOctets (octetsText [first, second, third, fourth] ++ rest) =
      some (#v[first, second, third, fourth], rest) := by
  have point (text : List Char) : StartsApart Char.isDigit ('.' :: text) :=
    startsApart_cons.mpr (by decide)
  simp only [octetsText_four, List.append_assoc, List.cons_append]
  rw [readOctets, Reader.bind_of_read (readOctet_decimal first (point _)),
    Reader.bind_of_read (Reader.exactly_cons '.' _),
    Reader.bind_of_read (readOctet_decimal second (point _)),
    Reader.bind_of_read (Reader.exactly_cons '.' _),
    Reader.bind_of_read (readOctet_decimal third (point _)),
    Reader.bind_of_read (Reader.exactly_cons '.' _),
    Reader.bind_of_read (readOctet_decimal fourth ended)]
  rfl

theorem readOctet_rest {text left : List Char} {octet : UInt8}
    (isRead : readOctet text = some (octet, left)) : left = text.dropWhile Char.isDigit := by
  simp only [readOctet] at isRead
  split at isRead
  · cases isRead
  · split at isRead
    · cases isRead
    · obtain ⟨_, rfl⟩ := Prod.mk.inj (Option.some.inj isRead)
      exact drop_length_takeWhile Char.isDigit text

/-- Without a point behind its digits a text is not read as octets. -/
theorem readOctets_none {text : List Char}
    (noPoint : StartsApart (· == '.') (text.dropWhile Char.isDigit)) : readOctets text = none := by
  cases first : readOctet text with
  | none => exact Reader.bind_of_none first
  | some result =>
    obtain ⟨octet, left⟩ := result
    obtain rfl := readOctet_rest first
    exact (Reader.bind_of_read first).trans (Reader.bind_of_none (Reader.exactly_of_apart noPoint))

/-! ### Groups -/

/-- Whether a character is a digit of a group. -/
def isGroupChar (char : Char) : Bool := (hexDigit? char).isSome

/-- A text is at its end, or a colon comes next. -/
def AtColon (text : List Char) : Prop := StartsApart (· != ':') text

theorem AtColon.apart {text : List Char} (atColon : AtColon text) {kind : Char → Bool}
    (notColon : kind ':' = false) : StartsApart kind text := by
  cases text with
  | nil => exact .nil kind
  | cons char further =>
    obtain rfl : char = ':' := by simpa [AtColon] using atColon
    exact startsApart_cons.mpr notColon

theorem atColon_cons (text : List Char) : AtColon (':' :: text) := startsApart_cons.mpr (by decide)

theorem readGroup_hexadecimal (group : UInt16) (atColon : AtColon rest) :
    readGroup (hexadecimal group.toNat ++ rest) = some (group, rest) := by
  have run : (hexadecimal group.toNat ++ rest).takeWhile isGroupChar = hexadecimal group.toNat :=
    takeWhile_append_apart (fun _ => isHexDigit_of_mem_hexadecimal) (atColon.apart (by decide))
  have present : (hexadecimal group.toNat).isEmpty = false := by
    simp [hexadecimal, Nat.toDigits_ne_nil]
  have short : (hexadecimal group.toNat).length ≤ 4 :=
    length_hexadecimal_le (by decide) group.toNat_lt
  have run : (hexadecimal group.toNat ++ rest).takeWhile (fun char => (hexDigit? char).isSome) =
      hexadecimal group.toNat := run
  have allowed : ¬ ((hexadecimal group.toNat).isEmpty = true ∨
      4 < (hexadecimal group.toNat).length) := by
    simp only [present, Bool.false_eq_true, false_or]
    omega
  rw [readGroup, run, if_neg allowed, value_hexadecimal, List.drop_left, UInt16.ofNat_toNat]

theorem noPoint_of_groupChars {text : List Char}
    (each : ∀ char ∈ text, isGroupChar char = true) (atColon : AtColon rest) :
    StartsApart (· == '.') ((text ++ rest).dropWhile Char.isDigit) := by
  induction text with
  | nil =>
    have kept : rest.dropWhile Char.isDigit = rest :=
      dropWhile_of_apart (atColon.apart (by decide))
    rw [List.nil_append, kept]
    exact atColon.apart (by decide)
  | cons char further inductionHypothesis =>
    obtain ⟨now, later⟩ := List.forall_mem_cons.mp each
    rw [List.cons_append]
    by_cases isDigit : char.isDigit = true
    · rw [List.dropWhile_cons_of_pos isDigit]
      exact inductionHypothesis later
    · rw [List.dropWhile_cons_of_neg isDigit, startsApart_cons]
      refine beq_eq_false_iff_ne.mpr fun isPoint => ?_
      rw [isPoint] at now
      cases now

/-- Groups with a colon before each. -/
def colonText (groups : List UInt16) : List Char :=
  groups.flatMap fun group => ':' :: hexadecimal group.toNat

theorem colonText_cons (group : UInt16) (others : List UInt16) :
    colonText (group :: others) = ':' :: (hexadecimal group.toNat ++ colonText others) := by
  rw [colonText, List.flatMap_cons, List.cons_append]
  rfl

theorem groupsText_cons (group : UInt16) (others : List UInt16) :
    groupsText (group :: others) = hexadecimal group.toNat ++ colonText others := by
  have joined : groupsText (group :: others) =
      [':'].intercalate ((group :: others).map fun group => hexadecimal group.toNat) := rfl
  rw [joined, List.map_cons, intercalate_cons, List.flatMap_map]
  rfl

theorem atColon_colonText (groups : List UInt16) (atColon : AtColon rest) :
    AtColon (colonText groups ++ rest) := by
  cases groups with
  | nil => exact atColon
  | cons group others =>
    rw [colonText_cons, List.cons_append]
    exact atColon_cons _

theorem readOctets_hexadecimal (group : UInt16) (atColon : AtColon rest) :
    readOctets (hexadecimal group.toNat ++ rest) = none :=
  readOctets_none (noPoint_of_groupChars (fun _ => isHexDigit_of_mem_hexadecimal) atColon)

theorem readOctets_atColon (atColon : AtColon rest) : readOctets rest = none :=
  readOctets_none (noPoint_of_groupChars (List.forall_mem_nil (isGroupChar · = true)) atColon)

theorem readGroup_atColon (atColon : AtColon rest) : readGroup rest = none := by
  have run : rest.takeWhile (fun char => (hexDigit? char).isSome) = [] :=
    takeWhile_of_apart (atColon.apart (by decide))
  rw [readGroup, run]
  rfl

/-- Nothing that is read as groups comes next: the text is at its end, or at a pair of colons. -/
inductive EndsGroups : List Char → Prop where
  | done : EndsGroups []
  | zeros (further : List Char) : EndsGroups (':' :: ':' :: further)

theorem EndsGroups.atColon (ends : EndsGroups rest) : AtColon rest := by
  cases ends with
  | done => exact .nil _
  | zeros further => exact atColon_cons _

theorem EndsGroups.afterColon_eq_none (ends : EndsGroups rest) (start : Bool) {reader : Reader α}
    (refuses : ∀ text, AtColon text → reader text = none) :
    afterColon start reader rest = none := by
  cases start with
  | true => exact refuses rest ends.atColon
  | false =>
    cases ends with
    | done => rfl
    | zeros further =>
      exact (Reader.bind_of_read (Reader.exactly_cons ':' _)).trans (refuses _ (atColon_cons _))

theorem readGroups_ended (ends : EndsGroups rest) (room : Nat) (start : Bool) :
    readGroups room start rest = ⟨[], false, rest⟩ := by
  cases room with
  | zero => rfl
  | succ room =>
    have noOctets : afterColon start readOctets rest = none :=
      ends.afterColon_eq_none start fun _ => readOctets_atColon
    have noGroup : afterColon start readGroup rest = none :=
      ends.afterColon_eq_none start fun _ => readGroup_atColon
    simp [readGroups, noOctets, noGroup]

/-- A group that is no octet is read, and then those that follow. -/
theorem readGroups_next {text : List Char} {start : Bool} {group : UInt16}
    (noOctets : afterColon start readOctets text = none)
    (isGroup : afterColon start readGroup text = some (group, rest)) (room : Nat) :
    readGroups (room + 1) start text =
      { readGroups room false rest with
        groups := group :: (readGroups room false rest).groups } := by
  simp [readGroups, noOctets, isGroup]

theorem readGroups_colonText {groups : List UInt16} {room : Nat} (fits : groups.length ≤ room)
    (ends : EndsGroups rest) :
    readGroups room false (colonText groups ++ rest) = ⟨groups, false, rest⟩ := by
  induction groups generalizing room with
  | nil => exact readGroups_ended ends room false
  | cons group others inductionHypothesis =>
    obtain ⟨room, rfl⟩ := Nat.exists_eq_add_one_of_ne_zero (Nat.ne_zero_of_lt fits)
    have atColon := atColon_colonText others ends.atColon
    rw [colonText_cons, List.cons_append, List.append_assoc]
    have noOctets : afterColon false readOctets (':' :: (hexadecimal group.toNat ++
        (colonText others ++ rest))) = none :=
      (Reader.bind_of_read (Reader.exactly_cons ':' _)).trans (readOctets_hexadecimal group atColon)
    have isGroup : afterColon false readGroup (':' :: (hexadecimal group.toNat ++
        (colonText others ++ rest))) = some (group, colonText others ++ rest) :=
      (Reader.bind_of_read (Reader.exactly_cons ':' _)).trans (readGroup_hexadecimal group atColon)
    rw [readGroups_next noOctets isGroup, inductionHypothesis (Nat.le_of_succ_le_succ fits)]

theorem readGroups_groupsText {groups : List UInt16} {room : Nat} (fits : groups.length ≤ room)
    (ends : EndsGroups rest) :
    readGroups room true (groupsText groups ++ rest) = ⟨groups, false, rest⟩ := by
  cases groups with
  | nil => exact readGroups_ended ends room true
  | cons group others =>
    obtain ⟨room, rfl⟩ := Nat.exists_eq_add_one_of_ne_zero (Nat.ne_zero_of_lt fits)
    have atColon := atColon_colonText others ends.atColon
    have noOctets : afterColon true readOctets (hexadecimal group.toNat ++
        (colonText others ++ rest)) = none := readOctets_hexadecimal group atColon
    have isGroup : afterColon true readGroup (hexadecimal group.toNat ++
        (colonText others ++ rest)) = some (group, colonText others ++ rest) :=
      readGroup_hexadecimal group atColon
    rw [groupsText_cons, List.append_assoc, readGroups_next noOctets isGroup,
      readGroups_colonText (Nat.le_of_succ_le_succ fits) ends]

theorem readOctets_groupsText (groups : List UInt16) (atColon : AtColon rest) :
    readOctets (groupsText groups ++ rest) = none := by
  cases groups with
  | nil => exact readOctets_atColon atColon
  | cons group others =>
    rw [groupsText_cons, List.append_assoc]
    exact readOctets_hexadecimal group (atColon_colonText others atColon)

/-! ### Zeros that are left out -/

/-- All groups of a run are zero. -/
def AllZero (groups : List UInt16) (run : ZeroRun) : Prop :=
  ∀ position, run.start ≤ position → position < run.start + run.length →
    groups[position]? = some 0

theorem AllZero.append_one {groups : List UInt16} {run : ZeroRun} (allZero : AllZero groups run)
    (group : UInt16) : AllZero (groups ++ [group]) run := by
  intro position started inside
  have isZero := allZero position started inside
  rwa [List.getElem?_append_left (List.getElem?_eq_some_iff.mp isZero).1]

/-- A run that ends where the groups do goes on with a further zero. -/
theorem AllZero.extended {groups : List UInt16} {run : ZeroRun} (allZero : AllZero groups run)
    (reaches : run.start + run.length = groups.length) :
    AllZero (groups ++ [0]) ⟨run.start, run.length + 1⟩ := by
  intro position started inside
  by_cases isLast : position = groups.length
  · rw [isLast, List.getElem?_concat_length]
  · have inside : position < run.start + (run.length + 1) := inside
    exact allZero.append_one 0 position started (by omega)

theorem zeroRuns_append_one (groups : List UInt16) (group : UInt16) :
    zeroRuns (groups ++ [group]) =
      if group = 0 then
        let current : ZeroRun :=
          if (zeroRuns groups).2.length = 0 then ⟨groups.length, 1⟩
          else ⟨(zeroRuns groups).2.start, (zeroRuns groups).2.length + 1⟩
        (if (zeroRuns groups).1.length < current.length then current else (zeroRuns groups).1,
          current)
      else ((zeroRuns groups).1, ⟨0, 0⟩) := by
  simp [zeroRuns, List.zipIdx_append]

/-- The runs found in groups are runs of zeros, and the second one ends where the groups do. -/
structure FoundRuns (groups : List UInt16) (runs : ZeroRun × ZeroRun) : Prop where
  longest : AllZero groups runs.1
  current : AllZero groups runs.2
  ended : runs.2.length = 0 ∨ runs.2.start + runs.2.length = groups.length

theorem foundRuns (groups : List UInt16) : FoundRuns groups (zeroRuns groups) := by
  induction groups using List.reverseRecOn with
  | nil =>
    have empty : zeroRuns [] = (⟨0, 0⟩, ⟨0, 0⟩) := rfl
    rw [empty]
    exact ⟨nofun, nofun, .inl rfl⟩
  | append_singleton groups group inductionHypothesis =>
    obtain ⟨longest, current, ended⟩ := inductionHypothesis
    rw [zeroRuns_append_one]
    generalize zeroRuns groups = runs at longest current ended
    split
    · next isZero =>
      obtain ⟨run, isNew, allZero, reaches⟩ : ∃ run : ZeroRun,
          (if runs.2.length = 0 then (⟨groups.length, 1⟩ : ZeroRun)
            else ⟨runs.2.start, runs.2.length + 1⟩) = ⟨run.start, run.length + 1⟩ ∧
          AllZero groups run ∧ run.start + run.length = groups.length := by
        by_cases fresh : runs.2.length = 0
        · exact ⟨⟨groups.length, 0⟩, if_pos fresh,
            fun position started inside => absurd inside (Nat.not_lt.mpr started), rfl⟩
        · exact ⟨runs.2, if_neg fresh, current, ended.resolve_left fresh⟩
      have extended := allZero.extended reaches
      rw [isNew, isZero]
      refine ⟨?_, extended, .inr (by simp [← reaches, Nat.add_assoc])⟩
      simp only
      split
      · exact extended
      · exact longest.append_one 0
    · exact ⟨longest.append_one group, nofun, .inl rfl⟩

/-- Groups are what stands before their longest run of zeros, that run, and what is behind it. -/
theorem take_zeros_drop {groups : List UInt16} {run : ZeroRun} (allZero : AllZero groups run) :
    groups.take run.start ++ List.replicate run.length 0 ++
      groups.drop (run.start + run.length) = groups := by
  have zeros : (groups.drop run.start).take run.length = List.replicate run.length 0 := by
    refine List.ext_getElem? fun position => ?_
    rw [List.getElem?_take, List.getElem?_replicate]
    split
    · next inside =>
      rw [List.getElem?_drop]
      exact allZero _ (by omega) (by omega)
    · rfl
  rw [← zeros, List.append_assoc, ← List.drop_drop, List.take_append_drop, List.take_append_drop]

/-! ### Addresses -/

theorem groups?_toList (groups : Vector UInt16 8) : groups? groups.toList = some groups := by
  have size : groups.toList.toArray.size = 8 := by simp
  rw [groups?, dif_pos size]
  exact congrArg some (Vector.toArray_inj.mp Array.toArray_toList)

theorem readGrouped_groupsText (groups : Vector UInt16 8) :
    readGrouped (groupsText groups.toList) = some (groups, []) := by
  have count : groups.toList.length = 8 := by simp
  have front := readGroups_groupsText (Nat.le_of_eq count) .done
  rw [List.append_nil] at front
  rw [readGrouped, front]
  simp only
  rw [if_pos count, groups?_toList]
  rfl

/-- Groups around a pair of colons are read with as many zeros between them as are left out. -/
theorem readGrouped_around (front : List UInt16) {back : List UInt16} {text : List Char}
    {endsInOctets : Bool}
    (isBack : readGroups (7 - front.length) true text = ⟨back, endsInOctets, []⟩)
    (few : front.length < 8) {groups : Vector UInt16 8}
    (whole : front ++ List.replicate (8 - front.length - back.length) 0 ++ back = groups.toList) :
    readGrouped (groupsText front ++ ':' :: ':' :: text) = some (groups, []) := by
  have isFront := readGroups_groupsText (Nat.le_of_lt few) (.zeros text)
  rw [readGrouped, isFront]
  simp only
  rw [if_neg (Nat.ne_of_lt few), if_neg (by decide), isBack]
  simp only
  rw [whole, groups?_toList]
  rfl

theorem readGrouped_compressedText (groups : Vector UInt16 8) :
    readGrouped (compressedText groups.toList) = some (groups, []) := by
  have count : groups.toList.length = 8 := by simp
  have allZero := (foundRuns groups.toList).longest
  unfold compressedText
  simp only
  generalize (zeroRuns groups.toList).1 = run at allZero
  split
  · next long =>
    have inside : run.start + run.length ≤ 8 := by
      have last := allZero (run.start + run.length - 1) (by omega) (by omega)
      have := (List.getElem?_eq_some_iff.mp last).1
      omega
    have front : (groups.toList.take run.start).length = run.start := by
      rw [List.length_take]
      omega
    have back : (groups.toList.drop (run.start + run.length)).length =
        8 - (run.start + run.length) := by
      rw [List.length_drop, count]
    have isBack : readGroups (7 - (groups.toList.take run.start).length) true
        (groupsText (groups.toList.drop (run.start + run.length)) ++ []) =
          ⟨groups.toList.drop (run.start + run.length), false, []⟩ :=
      readGroups_groupsText (by omega) .done
    rw [List.append_nil] at isBack
    refine readGrouped_around _ isBack (by omega) ?_
    have left : 8 - (groups.toList.take run.start).length -
        (groups.toList.drop (run.start + run.length)).length = run.length := by omega
    rw [left]
    exact take_zeros_drop allZero
  · exact readGrouped_groupsText groups

theorem readOctets_compressedText (groups : List UInt16) :
    readOctets (compressedText groups) = none := by
  unfold compressedText
  simp only
  split
  · exact readOctets_groupsText _ (atColon_cons _)
  · rw [← List.append_nil (groupsText groups)]
    exact readOctets_groupsText groups (.nil _)

theorem pairOfOctets_halves (high low : UInt16) :
    pairOfOctets #v[UInt8.ofNat (high.toNat / 256), UInt8.ofNat high.toNat,
      UInt8.ofNat (low.toNat / 256), UInt8.ofNat low.toNat] = [high, low] := by
  have joined (group : UInt16) :
      UInt16.ofNat (256 * (UInt8.ofNat (group.toNat / 256)).toNat +
        (UInt8.ofNat group.toNat).toNat) = group := by
    have bound := group.toNat_lt
    have same : 256 * (group.toNat / 256 % 2 ^ 8) + group.toNat % 2 ^ 8 = group.toNat := by omega
    rw [UInt8.toNat_ofNat', UInt8.toNat_ofNat', same, UInt16.ofNat_toNat]
  exact congrArg₂ (fun first second => [first, second]) (joined high) (joined low)

/-- Groups that show an address of version 4 are read back from its octets. -/
theorem readGrouped_mapped {groups : Vector UInt16 8} {octets : List UInt8}
    (isMapped : mapped? groups.toList = some octets) :
    readGrouped ([':', ':', 'f', 'f', 'f', 'f', ':'] ++ octetsText octets) =
      some (groups, []) := by
  unfold mapped? at isMapped
  split at isMapped
  · next high low isGroups =>
    obtain rfl := Option.some.inj isMapped
    have areOctets := readOctets_octetsText (UInt8.ofNat (high.toNat / 256))
      (UInt8.ofNat high.toNat) (UInt8.ofNat (low.toNat / 256)) (UInt8.ofNat low.toNat) (.nil _)
    rw [List.append_nil] at areOctets
    generalize octetsText _ = text at areOctets ⊢
    have last : readGroups 6 false (':' :: text) = ⟨[high, low], true, []⟩ := by
      have isPair : afterColon false readOctets (':' :: text) = some (_, []) :=
        (Reader.bind_of_read (Reader.exactly_cons ':' text)).trans areOctets
      rw [readGroups, if_neg (by decide), isPair, ← pairOfOctets_halves high low]
    have isBack : readGroups 7 true ('f' :: 'f' :: 'f' :: 'f' :: ':' :: text) =
        ⟨[0xffff, high, low], true, []⟩ := by
      have noOctets : afterColon true readOctets ('f' :: 'f' :: 'f' :: 'f' :: ':' :: text) = none :=
        readOctets_hexadecimal 0xffff (atColon_cons text)
      have isGroup : afterColon true readGroup ('f' :: 'f' :: 'f' :: 'f' :: ':' :: text) =
          some (0xffff, ':' :: text) :=
        readGroup_hexadecimal 0xffff (atColon_cons text)
      rw [readGroups_next noOctets isGroup, last]
    exact readGrouped_around [] isBack (by decide) isGroups.symm
  · cases isMapped

/-- The text of eight groups is read as these, and not as octets. -/
theorem toList_text_v6 (groups : Vector UInt16 8) :
    readGrouped (Address.v6 groups).text.toList = some (groups, []) ∧
      readOctets (Address.v6 groups).text.toList = none := by
  unfold text
  simp only
  split
  · next octets isMapped =>
    rw [String.toList_ofList]
    exact ⟨readGrouped_mapped isMapped, readOctets_atColon (atColon_cons _)⟩
  · rw [String.toList_ofList]
    exact ⟨readGrouped_compressedText groups, readOctets_compressedText groups.toList⟩

/-- An address is read back from its text. -/
theorem ofText?_text (address : Address) : ofText? address.text = some address := by
  cases address with
  | v4 octets =>
    obtain ⟨⟨list⟩, size⟩ := octets
    match list, size with
    | [first, second, third, fourth], _ =>
      have isRead : readOctets (octetsText [first, second, third, fourth] ++ []) =
          some (#v[first, second, third, fourth], []) :=
        readOctets_octetsText first second third fourth (.nil _)
      have written : readOctets
          (String.ofList (octetsText [first, second, third, fourth])).toList =
            some (#v[first, second, third, fourth], []) := by
        rw [String.toList_ofList, ← isRead, List.append_nil]
      have whole : readOctets.run? (Address.v4 #v[first, second, third, fourth]).text =
          some #v[first, second, third, fourth] := Reader.run?_of_read written
      show ofText? (Address.v4 #v[first, second, third, fourth]).text =
        some (Address.v4 #v[first, second, third, fourth])
      rw [ofText?, whole]
      rfl
  | v6 groups =>
    obtain ⟨isRead, noOctets⟩ := toList_text_v6 groups
    have noOctets : readOctets.run? (Address.v6 groups).text = none := Reader.run?_eq noOctets
    rw [ofText?, noOctets, Reader.run?_of_read isRead]
    rfl

end RelationalAccess.Address
