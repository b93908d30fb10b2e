import RelationalAccess.Proofs.Schema.Declarable

/-!
The texts of a column type are declarations of it: every type that a declaration is read as,
or that is resolved for an engine, is read back from its declared text and from its text in a
`CREATE TABLE`.
-/

namespace RelationalAccess

namespace Declaration

/-- Nothing that could belong to a type comes next. -/
structure EndsType (rest : List Char) : Prop where
  name : StartsApart isNameChar rest
  arguments : StartsApart (· == '(') (skipSpace rest)
  unsigned : StartsApart (·.toLower == 'u') (skipSpace rest)

theorem EndsType.nil : EndsType [] where
  name := .nil _
  arguments := .nil _
  unsigned := .nil _

variable {rest : List Char}

theorem isSpace_blank : ∀ char ∈ [' '], isSpace char = true := List.forall_mem_singleton.mpr rfl

/-- The word for types without a sign, in any case, begins with a letter that is no white space
and opens no arguments. -/
theorem skipSpace_word {gap word : List Char} (spaces : ∀ char ∈ gap, isSpace char = true)
    (isWord : word.map Char.toLower = unsignedWord) (rest : List Char) :
    skipSpace (gap ++ (word ++ rest)) = word ++ rest ∧ StartsApart (· == '(') (word ++ rest) := by
  cases word with
  | nil => cases isWord
  | cons first others =>
    have isU : first.toLower = 'u' := (List.cons.inj isWord).1
    have noSpace : isSpace first = false := by
      by_contra isSpace
      simp only [Declaration.isSpace, Bool.not_eq_false, Bool.or_eq_true, beq_iff_eq] at isSpace
      rcases isSpace with ((rfl | rfl) | rfl) | rfl <;> revert isU <;> decide
    have notOpen : (first == '(') = false := by
      by_contra isOpen
      obtain rfl : first = '(' := by simpa using isOpen
      revert isU
      decide
    exact ⟨(skipSpace_append spaces).trans (skipSpace_cons noSpace), startsApart_cons.mpr notOpen⟩

theorem readUnsigned_written {gap word : List Char} (spaces : ∀ char ∈ gap, isSpace char = true)
    (present : gap ≠ []) (isWord : word.map Char.toLower = unsignedWord) :
    readUnsigned (gap ++ (word ++ rest)) = some ((), rest) := by
  have length : word.length = 8 :=
    (List.length_map Char.toLower).symm.trans (congrArg List.length isWord)
  have taken : (word ++ rest).take 8 = word := length ▸ List.take_left
  have left : (word ++ rest).drop 8 = rest := length ▸ List.drop_left
  have shorter : (word ++ rest).length < (gap ++ (word ++ rest)).length := by
    have positive := List.length_pos_of_ne_nil present
    simp only [List.length_append]
    omega
  rw [readUnsigned]
  simp only [(skipSpace_word spaces isWord rest).1, taken, left, isWord, shorter, and_self, if_true]

theorem readUnsigned_of_ends (ends : EndsType rest) : readUnsigned rest = none := by
  have begins : ¬ ((skipSpace rest).take 8).map Char.toLower = unsignedWord := by
    intro isWord
    cases isRest : skipSpace rest with
    | nil => rw [isRest] at isWord; cases isWord
    | cons first others =>
      have apart := startsApart_cons.mp (isRest ▸ ends.unsigned)
      rw [isRest] at isWord
      simp [(List.cons.inj isWord).1] at apart
  exact if_neg fun found => begins found.2

theorem readArguments_of_apart (apart : StartsApart (· == '(') (skipSpace rest)) :
    readArguments rest = none := by
  unfold readArguments
  split
  · next isOpen => simp [isOpen] at apart
  · rfl

end Declaration

namespace ColumnType

open Declaration

variable {type : ColumnType} {rest : List Char}

/-- A type is read back from its name, in any case, with its arguments and the word for types
without a sign, wherever the text goes on with what cannot belong to it. -/
theorem Declarable.readType_written (declarable : type.Declarable) {name word : List Char}
    (isName : name.map Char.toLower = type.name.toList)
    (nameChars : ∀ char ∈ name, isNameChar char = true)
    (isWord : word.map Char.toLower = unsignedWord) (ends : EndsType rest) :
    readType type.engine (name ++ ((type.arguments?.map Arguments.written).getD [] ++
      ((if type.unsigned then ' ' :: word else []) ++ rest))) = some (type, rest) := by
  have sign : nextUnsigned ((if type.unsigned then ' ' :: word else []) ++ rest) =
      (type.unsigned, rest) := by
    unfold nextUnsigned
    cases type.unsigned with
    | false => simp [readUnsigned_of_ends ends]
    | true =>
      have isRead : readUnsigned (' ' :: (word ++ rest)) = some ((), rest) :=
        readUnsigned_written isSpace_blank (List.cons_ne_nil _ _) isWord
      simp [isRead]
  have notOpen : StartsApart (· == '(')
      (skipSpace ((if type.unsigned then ' ' :: word else []) ++ rest)) := by
    cases type.unsigned with
    | false => exact ends.arguments
    | true =>
      obtain ⟨skipped, apart⟩ := skipSpace_word isSpace_blank isWord rest
      exact (skipped.symm ▸ apart : StartsApart (· == '(') (skipSpace (' ' :: (word ++ rest))))
  have nameEnds : StartsApart isNameChar ((if type.unsigned then ' ' :: word else []) ++ rest) := by
    cases type.unsigned with
    | false => exact ends.name
    | true => exact startsApart_cons.mpr (by decide)
  generalize (if type.unsigned then ' ' :: word else []) ++ rest = behind at sign notOpen nameEnds
  have arguments : nextArguments ((type.arguments?.map Arguments.written).getD [] ++ behind) =
      (type.arguments?, behind) := by
    unfold nextArguments
    cases present : type.arguments? with
    | none => simp [readArguments_of_apart notOpen]
    | some arguments => simp [readArguments_written (declarable.readable present)]
  have apart : StartsApart isNameChar
      ((type.arguments?.map Arguments.written).getD [] ++ behind) := by
    cases type.arguments? with
    | none => exact nameEnds
    | some arguments => cases arguments <;> exact startsApart_cons.mpr (by decide)
  have named : ¬ name.isEmpty := by
    intro nameless
    rw [List.isEmpty_iff.mp nameless] at isName
    exact declarable.named isName.symm
  rw [readType]
  simp only [takeWhile_append_apart nameChars apart, dropWhile_append_apart nameChars apart,
    arguments, sign, declarable.type_eq isName]
  exact if_neg named

theorem Declarable.readType_display (declarable : type.Declarable) (ends : EndsType rest) :
    readType type.engine (type.display.toList ++ rest) = some (type, rest) := by
  have lower : type.name.toList.map Char.toLower = type.name.toList :=
    (List.map_congr_left fun char membership => (declarable.nameChars char membership).2).trans
      (List.map_id _)
  have isRead := declarable.readType_written lower
    (fun char membership => (declarable.nameChars char membership).1)
    (show unsignedWord.map Char.toLower = unsignedWord by decide) ends
  have sign : (if type.unsigned then " unsigned" else "").toList =
      if type.unsigned then ' ' :: unsignedWord else [] := by
    cases type.unsigned <;> rfl
  rw [display, String.toList_append, String.toList_append, argumentsText_toList, sign,
    List.append_assoc, List.append_assoc]
  exact isRead

theorem Declarable.readType_ddl (declarable : type.Declarable) (ends : EndsType rest) :
    readType type.engine (type.ddl.toList ++ rest) = some (type, rest) := by
  have lower : (type.name.toList.map Char.toUpper).map Char.toLower = type.name.toList := by
    rw [List.map_map]
    refine (List.map_congr_left fun char membership => ?_).trans (List.map_id _)
    obtain ⟨isName, isLower⟩ := declarable.nameChars char membership
    exact (toLower_toUpper isName).trans isLower
  have nameChars : ∀ char ∈ type.name.toList.map Char.toUpper, isNameChar char = true :=
    List.forall_mem_map.mpr fun char membership =>
      isNameChar_toUpper (declarable.nameChars char membership).1
  have isRead := declarable.readType_written lower nameChars
    (show (unsignedWord.map Char.toUpper).map Char.toLower = unsignedWord by decide) ends
  have sign : (if type.unsigned then " UNSIGNED" else "").toList =
      if type.unsigned then ' ' :: unsignedWord.map Char.toUpper else [] := by
    cases type.unsigned <;> rfl
  rw [ddl, String.toList_append, String.toList_append, argumentsText_toList, sign,
    String.toList_ofList, List.append_assoc, List.append_assoc]
  exact isRead

/-- A text off which a type can be read does not begin with white space. -/
theorem startsApart_of_readType {engine : Engine} {text : List Char}
    (isRead : readType engine text = some (type, rest)) : StartsApart isSpace text := by
  intro char first
  refine not_isSpace_of_isNameChar ?_
  by_contra other
  have nameless : (text.takeWhile isNameChar).isEmpty := by
    cases text with
    | nil => rfl
    | cons begin others =>
      obtain rfl : begin = char := Option.some.inj first
      rw [List.takeWhile_cons_of_neg other]
      rfl
  rw [readType, if_pos nameless] at isRead
  cases isRead

/-- A text off which a type can be read, with nothing left, is a declaration of it. -/
theorem parse_of_readType {engine : Engine} {text : String}
    (isRead : readType engine text.toList = some (type, [])) : parse engine text = .ok type := by
  refine parse_eq_ok_iff.mpr ⟨[], ?_, rfl⟩
  rwa [skipSpace_of_apart (startsApart_of_readType isRead)]

/-- The types that come up: those that declarations are read as, and those resolved for an
engine from such declared ones. -/
inductive Arises : ColumnType → Prop where
  | declared {engine : Engine} {text : String} {type : ColumnType}
    (isRead : parse engine text = .ok type) : Arises type
  | resolved {declared : List ColumnType} {host : HostType} {target : Engine} {type : ColumnType}
    (areRead : ∀ each ∈ declared, ∃ engine text, parse engine text = .ok each)
    (isResolved : resolve? declared host target = some type) : Arises type

theorem Arises.declarable (arises : type.Arises) : type.Declarable := by
  cases arises with
  | declared isRead => exact .ofParse isRead
  | resolved areRead isResolved =>
    refine .ofResolve? (fun each membership => ?_) isResolved
    obtain ⟨_, _, isRead⟩ := areRead each membership
    exact .ofParse isRead

/-- Every type that comes up is read back for its engine from the text that declares it and
from its text in a `CREATE TABLE`. -/
theorem Arises.read_back (arises : type.Arises) :
    parse type.engine type.display = .ok type ∧ parse type.engine type.ddl = .ok type := by
  have declarable := arises.declarable
  have display := declarable.readType_display .nil
  have ddl := declarable.readType_ddl .nil
  rw [List.append_nil] at display ddl
  exact ⟨parse_of_readType display, parse_of_readType ddl⟩

/-- A type resolved from a declaration for all engines, and one from labels that hold quotes,
commas and nothing at all. -/
theorem read_back_resolved :
    ∃ declared amount choice,
      parse .common " Decimal( 10 ,2)\tUNSIGNED " = .ok declared ∧
      resolve? [declared] .float64 .mariaDb = some amount ∧
      amount.ddl = "DECIMAL(10,2) UNSIGNED" ∧
      parse .mariaDb amount.display = .ok amount ∧ parse .mariaDb amount.ddl = .ok amount ∧
      resolve? [] (.labelled ["it's", "''", "", "a','b"]) .mySql = some choice ∧
      choice.ddl = "ENUM('it''s','''''','','a'',''b')" ∧
      parse .mySql choice.display = .ok choice ∧ parse .mySql choice.ddl = .ok choice := by
  obtain ⟨declared, isRead⟩ : ∃ declared,
      parse .common " Decimal( 10 ,2)\tUNSIGNED " = .ok declared := ⟨_, rfl⟩
  obtain ⟨amount, isAmount⟩ : ∃ amount, resolve? [declared] .float64 .mariaDb = some amount := by
    cases isRead
    exact ⟨_, rfl⟩
  obtain ⟨choice, isChoice⟩ : ∃ choice,
      resolve? [] (.labelled ["it's", "''", "", "a','b"]) .mySql = some choice := ⟨_, rfl⟩
  have amountBack := (Arises.resolved (by simpa using ⟨_, _, isRead⟩) isAmount).read_back
  have choiceBack := (Arises.resolved (by simp) isChoice).read_back
  refine ⟨declared, amount, choice, isRead, isAmount, ?_⟩
  cases isRead
  cases isAmount
  cases isChoice
  exact ⟨by decide, amountBack.1, amountBack.2, rfl, by decide, choiceBack.1, choiceBack.2⟩

end ColumnType

end RelationalAccess
