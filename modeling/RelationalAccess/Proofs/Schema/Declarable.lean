import RelationalAccess.Proofs.Schema.Declarations
import RelationalAccess.Schema.Resolution
import Mathlib.Data.List.TakeWhile

/-!
Types that can be written as declarations: every type that a declaration is read as is one, and
so is every type that is resolved for an engine.
-/

namespace RelationalAccess

namespace Declaration

/-! ### Reading a type off a text -/

variable {text rest : List Char}

theorem furtherItems_each {item : Reader α} {holds : α → Prop}
    (each : ∀ text value rest, item text = some (value, rest) → holds value) (bound : Nat) :
    ∀ value ∈ (furtherItems item bound text).1, holds value := by
  induction bound generalizing text with
  | zero => simp [furtherItems]
  | succ bound inductionHypothesis =>
    rw [furtherItems]
    split
    · simp
    · next first rest isRead =>
      refine List.forall_mem_cons.mpr ⟨?_, inductionHypothesis⟩
      obtain ⟨⟨_, behind⟩, _, isFirst⟩ := Option.bind_eq_some_iff.mp isRead
      exact each behind first rest isFirst

theorem readItems_each {item : Reader α} {values : List α} (holds : α → Prop)
    (each : ∀ text value rest, item text = some (value, rest) → holds value)
    (isRead : readItems item text = some (values, rest)) :
    values ≠ [] ∧ ∀ value ∈ values, holds value := by
  obtain ⟨⟨first, behind⟩, isFirst, further⟩ := Option.bind_eq_some_iff.mp isRead
  obtain ⟨rfl, _⟩ := Prod.mk.inj (Option.some.inj further)
  exact ⟨List.cons_ne_nil _ _, List.forall_mem_cons.mpr
    ⟨each text first behind isFirst, furtherItems_each each _⟩⟩

/-- Arguments that were read can be read. -/
theorem readable_of_readArguments {arguments : Arguments}
    (isRead : readArguments text = some (arguments, rest)) : arguments.Readable := by
  unfold readArguments at isRead
  split at isRead
  · next inside _ =>
    obtain ⟨⟨found, behind⟩, isList, closed⟩ := Option.bind_eq_some_iff.mp isRead
    have same : found = arguments := by
      dsimp only at closed
      split at closed
      · exact (Prod.mk.inj (Option.some.inj closed)).1
      · cases closed
    subst same
    rw [readArgumentList, Option.orElse_eq_orElse, Option.orElse_eq_or,
      Option.or_eq_some_iff] at isList
    rcases isList with numbers | ⟨_, labels⟩
    · obtain ⟨⟨values, _⟩, areRead, same⟩ := Option.map_eq_some_iff.mp numbers
      obtain ⟨rfl, _⟩ := Prod.mk.inj same
      refine readItems_each (· < Nat.pow 2 64) (fun text number rest isNumber => ?_) areRead
      obtain ⟨⟨amount, _⟩, _, fits⟩ := Option.bind_eq_some_iff.mp isNumber
      dsimp only at fits
      split at fits
      · next small => exact (Prod.mk.inj (Option.some.inj fits)).1 ▸ small
      · cases fits
    · obtain ⟨⟨values, _⟩, areRead, same⟩ := Option.map_eq_some_iff.mp labels
      obtain ⟨rfl, _⟩ := Prod.mk.inj same
      exact (readItems_each (fun _ => True) (fun _ _ _ _ => trivial) areRead).1
  · cases isRead

/-- The arguments that come next, if there are any. -/
def nextArguments (text : List Char) : Option Arguments × List Char :=
  match readArguments text with
  | some (arguments, left) => (some arguments, left)
  | none => (none, text)

/-- Whether the word for types without a sign comes next. -/
def nextUnsigned (text : List Char) : Bool × List Char :=
  match readUnsigned text with
  | some (_, left) => (true, left)
  | none => (false, text)

/-- Reads a type off the front of a text. -/
def readType (engine : Engine) : Reader ColumnType := fun text =>
  let name := text.takeWhile isNameChar
  if name.isEmpty then none
  else
    let (arguments, rest) := nextArguments (text.dropWhile isNameChar)
    let (unsigned, rest) := nextUnsigned rest
    some (type engine (String.ofList name) arguments unsigned, rest)

/-- A declaration is a type that can be read off it, with nothing but white space behind. -/
theorem parse_eq (engine : Engine) (text : String) :
    ColumnType.parse engine text =
      match readType engine (skipSpace text.toList) with
      | none => .error (.noName (String.ofList (skipSpace text.toList)))
      | some (type, left) =>
        if (skipSpace left).isEmpty then .ok type
        else .error (.unreadEnd (String.ofList (skipSpace left))) := by
  unfold ColumnType.parse readType
  by_cases nameless : ((skipSpace text.toList).takeWhile isNameChar).isEmpty
  · rw [if_pos nameless, if_pos nameless]
  · rw [if_neg nameless, if_neg nameless]
    rfl

theorem parse_eq_ok_iff {engine : Engine} {text : String} {type : ColumnType} :
    ColumnType.parse engine text = .ok type ↔
      ∃ left, readType engine (skipSpace text.toList) = some (type, left) ∧
        skipSpace left = [] := by
  rw [parse_eq]
  rcases readType engine (skipSpace text.toList) with _ | ⟨found, left⟩
  · simp
  · by_cases noneLeft : skipSpace left = []
    · simp [noneLeft]
    · simp [noneLeft]

end Declaration

namespace ColumnType

open Declaration

/-- A type that can be written as a declaration. -/
structure Declarable (type : ColumnType) : Prop where
  named : type.name.toList ≠ []
  nameChars : ∀ char ∈ type.name.toList, isNameChar char = true ∧ char.toLower = char
  length : ∀ length, type.length = some length → length < Nat.pow 2 64
  decimals : ∀ decimals, type.decimals = some decimals →
    decimals < Nat.pow 2 32 ∧ type.length.isSome = true
  /-- There are labels or there are numbers. -/
  labels : type.labels ≠ [] → type.length = none

/-- The arguments of a type, if it has any. -/
def arguments? (type : ColumnType) : Option Arguments :=
  if type.labels.isEmpty then
    type.length.map fun length => .numbers (length :: type.decimals.toList)
  else some (.labels type.labels)

theorem argumentsText_toList (type : ColumnType) :
    type.argumentsText.toList = (type.arguments?.map Arguments.written).getD [] := by
  unfold argumentsText arguments?
  split
  · cases type.length with
    | none => rfl
    | some length =>
      cases type.decimals with
      | none => simp [Arguments.written, List.intercalate]
      | some decimals => simp [Arguments.written, List.intercalate]
  · simp [Arguments.written, String.toList_intercalate, Quoted.encloseText, Function.comp_def]

namespace Declarable

variable {type : ColumnType}

theorem readable (declarable : type.Declarable) {arguments : Arguments}
    (present : type.arguments? = some arguments) : arguments.Readable := by
  unfold arguments? at present
  split at present
  · obtain ⟨length, isLength, rfl⟩ := Option.map_eq_some_iff.mp present
    refine ⟨List.cons_ne_nil _ _, List.forall_mem_cons.mpr ⟨declarable.length length isLength, ?_⟩⟩
    intro decimals isDecimals
    have fits := (declarable.decimals decimals (Option.mem_toList.mp isDecimals)).1
    exact Nat.lt_trans fits (by decide)
  · next isLabelled =>
    obtain rfl := Option.some.inj present
    exact fun noLabels => isLabelled (List.isEmpty_iff.mpr noLabels)

/-- A type is what its name, in any case, its arguments and its sign stand for. -/
theorem type_eq (declarable : type.Declarable) {name : List Char}
    (isName : name.map Char.toLower = type.name.toList) :
    Declaration.type type.engine (String.ofList name) type.arguments? type.unsigned = type := by
  have named : ColumnType.named type.engine (String.ofList name) =
      { engine := type.engine, name := type.name } := by
    simp [ColumnType.named, isName]
  unfold Declaration.type arguments?
  rw [named]
  obtain ⟨engine, name, length, decimals, unsigned, labels⟩ := type
  cases labels with
  | nil =>
    cases length with
    | none =>
      cases decimals with
      | none => rfl
      | some decimals => cases (declarable.decimals decimals rfl).2
    | some length =>
      cases decimals with
      | none => rfl
      | some decimals =>
        have fits := (declarable.decimals decimals rfl).1
        simp [Nat.mod_eq_of_lt fits]
  | cons label others =>
    obtain rfl : length = none := declarable.labels (List.cons_ne_nil _ _)
    cases decimals with
    | none => rfl
    | some decimals => cases (declarable.decimals decimals rfl).2

/-- What a name and arguments that can be read stand for can be written. -/
theorem ofParts {engine : Engine} {name : List Char} {arguments : Option Arguments}
    {unsigned : Bool} (named : name ≠ []) (nameChars : ∀ char ∈ name, isNameChar char = true)
    (readable : ∀ present, arguments = some present → present.Readable) :
    (Declaration.type engine (String.ofList name) arguments unsigned).Declarable := by
  have plain : (name.map Char.toLower ≠ []) ∧ ∀ char ∈ name.map Char.toLower,
      isNameChar char = true ∧ char.toLower = char := by
    refine ⟨by simpa using named, fun char membership => ?_⟩
    obtain ⟨original, isThere, rfl⟩ := List.mem_map.mp membership
    have isName := nameChars original isThere
    exact ⟨isNameChar_toLower isName, toLower_toLower isName⟩
  unfold Declaration.type ColumnType.named
  rw [String.toList_ofList]
  cases arguments with
  | none =>
    exact { named := by simpa using plain.1, nameChars := by simpa using plain.2, length := nofun
            decimals := nofun, labels := fun present => absurd rfl present }
  | some present =>
    have readable := readable present rfl
    cases present with
    | numbers values =>
      obtain ⟨present, fit⟩ := readable
      refine { named := by simpa using plain.1, nameChars := by simpa using plain.2, length := ?_
               decimals := ?_, labels := fun present => absurd rfl present }
      · intro length isLength
        exact fit length (List.mem_of_getElem? isLength)
      · intro decimals isDecimals
        obtain ⟨number, _, rfl⟩ := Option.map_eq_some_iff.mp isDecimals
        refine ⟨Nat.mod_lt _ (by decide), ?_⟩
        obtain ⟨first, others, rfl⟩ := List.exists_cons_of_ne_nil present
        rfl
    | labels values =>
      exact { named := by simpa using plain.1, nameChars := by simpa using plain.2, length := nofun
              decimals := nofun, labels := fun _ => rfl }

theorem ofRead {engine : Engine} {text rest : List Char}
    (isRead : readType engine text = some (type, rest)) : type.Declarable := by
  unfold readType at isRead
  by_cases nameless : (text.takeWhile isNameChar).isEmpty
  · rw [if_pos nameless] at isRead
    cases isRead
  · rw [if_neg nameless] at isRead
    obtain ⟨rfl, _⟩ := Prod.mk.inj (Option.some.inj isRead)
    refine ofParts (fun noName => nameless (List.isEmpty_iff.mpr noName))
      (fun char membership => List.mem_takeWhile_imp membership) fun present isPresent => ?_
    split at isPresent
    · next areRead => exact Option.some.inj isPresent ▸ readable_of_readArguments areRead
    · cases isPresent

theorem ofParse {engine : Engine} {text : String} (isRead : parse engine text = .ok type) :
    type.Declarable :=
  have ⟨_, isRead, _⟩ := parse_eq_ok_iff.mp isRead
  ofRead isRead

/-! ### Resolved types -/

theorem ofNamed (engine : Engine) (name : String) (named : name.toList ≠ [])
    (nameChars : name.toList.all isNameChar = true) :
    (ColumnType.named engine name).Declarable := by
  have parts : (Declaration.type engine (String.ofList name.toList) none false).Declarable :=
    ofParts named (List.all_eq_true.mp nameChars) nofun
  rwa [String.ofList_toList] at parts

theorem withLength (declarable : type.Declarable) (length : Nat) (fits : length < Nat.pow 2 64)
    (unlabelled : type.labels = []) : (type.withLength length).Declarable where
  named := declarable.named
  nameChars := declarable.nameChars
  length := fun _ same => Option.some.inj same ▸ fits
  decimals := fun decimals present => ⟨(declarable.decimals decimals present).1, rfl⟩
  labels := fun present => absurd unlabelled present

theorem forEngine (declarable : type.Declarable) (engine : Engine) :
    (type.forEngine engine).Declarable where
  named := declarable.named
  nameChars := declarable.nameChars
  length := declarable.length
  decimals := declarable.decimals
  labels := declarable.labels

variable {found : ColumnType} {target : Engine}

theorem ofToSqlite? (carried : type.toSqlite? = some found) : found.Declarable := by
  have integer := ofNamed .sqlite "integer" (by decide) (by decide)
  have real := ofNamed .sqlite "real" (by decide) (by decide)
  have text := ofNamed .sqlite "text" (by decide) (by decide)
  have blob := ofNamed .sqlite "blob" (by decide) (by decide)
  unfold toSqlite? at carried
  grind

theorem ofToMySqlFamily? (declarable : type.Declarable)
    (carried : type.toMySqlFamily? target = some found) : found.Declarable := by
  have uuid := ofNamed target "uuid" (by decide) (by decide)
  have inet6 := ofNamed target "inet6" (by decide) (by decide)
  have inet4 := ofNamed target "inet4" (by decide) (by decide)
  have bigint := ofNamed target "bigint" (by decide) (by decide)
  have double := ofNamed target "double" (by decide) (by decide)
  have binary := ofNamed target "binary" (by decide) (by decide)
  have varchar := ofNamed target "varchar" (by decide) (by decide)
  have bit := ofNamed target "bit" (by decide) (by decide)
  have octets := binary.withLength 16 (by decide) rfl
  have longText := varchar.withLength 39 (by decide) rfl
  have shortText := varchar.withLength 15 (by decide) rfl
  have flag := bit.withLength 1 (by decide) rfl
  have moved := declarable.forEngine target
  have renamed : ({ type.forEngine target with name := "int" } : ColumnType).Declarable :=
    { moved with
      named := show "int".toList ≠ [] by decide
      nameChars := (ofNamed target "int" (by decide) (by decide)).nameChars }
  unfold toMySqlFamily? at carried
  grind

theorem ofCarryOver? (declarable : type.Declarable)
    (carried : type.carryOver? target = some found) : found.Declarable := by
  unfold carryOver? at carried
  split at carried
  · exact Option.some.inj carried ▸ declarable
  · split at carried
    · exact ofToSqlite? carried
    · exact declarable.ofToMySqlFamily? carried
    · exact declarable.ofToMySqlFamily? carried
    · cases carried

theorem ofInferMySqlFamily? {host : HostType}
    (inferred : inferMySqlFamily? host target = some found) : found.Declarable := by
  have bit := ofNamed target "bit" (by decide) (by decide)
  have smallint := ofNamed target "smallint" (by decide) (by decide)
  have int := ofNamed target "int" (by decide) (by decide)
  have bigint := ofNamed target "bigint" (by decide) (by decide)
  have float := ofNamed target "float" (by decide) (by decide)
  have double := ofNamed target "double" (by decide) (by decide)
  have varchar := ofNamed target "varchar" (by decide) (by decide)
  have blob := ofNamed target "blob" (by decide) (by decide)
  have uuid := ofNamed target "uuid" (by decide) (by decide)
  have binary := ofNamed target "binary" (by decide) (by decide)
  have datetime := ofNamed target "datetime" (by decide) (by decide)
  have date := ofNamed target "date" (by decide) (by decide)
  have inet6 := ofNamed target "inet6" (by decide) (by decide)
  have enum := ofNamed target "enum" (by decide) (by decide)
  have flag := bit.withLength 1 (by decide) rfl
  have octets := binary.withLength 16 (by decide) rfl
  have longText := varchar.withLength 39 (by decide) rfl
  have text := varchar.withLength 255 (by decide) rfl
  have labelled (labels : List String) :
      ({ ColumnType.named target "enum" with labels } : ColumnType).Declarable :=
    { enum with labels := fun _ => rfl }
  unfold inferMySqlFamily? at inferred
  cases host <;> grind

theorem ofInfer? {host : HostType} (inferred : infer? host target = some found) :
    found.Declarable := by
  unfold infer? at inferred
  split at inferred
  · obtain ⟨name, isNamed, rfl⟩ := Option.map_eq_some_iff.mp inferred
    have integer := ofNamed .sqlite "integer" (by decide) (by decide)
    have real := ofNamed .sqlite "real" (by decide) (by decide)
    have text := ofNamed .sqlite "text" (by decide) (by decide)
    have blob := ofNamed .sqlite "blob" (by decide) (by decide)
    unfold inferSqliteName? at isNamed
    grind
  · exact ofInferMySqlFamily? inferred
  · exact ofInferMySqlFamily? inferred
  · cases inferred

/-- A type resolved for an engine can be written if the declared ones can. -/
theorem ofResolve? {declared : List ColumnType} {host : HostType}
    (declarable : ∀ type ∈ declared, type.Declarable)
    (resolved : resolve? declared host target = some found) : found.Declarable := by
  have ofDeclaredFor? {engine : Engine} {type : ColumnType}
      (isDeclared : declaredFor? declared engine = some type) : type.Declarable :=
    declarable type (List.mem_of_find?_eq_some isDeclared)
  have ofCarried {source : Engine}
      (carried : (declaredFor? declared source).bind (·.carryOver? target) = some found) :
      found.Declarable := by
    obtain ⟨type, isDeclared, isCarried⟩ := Option.bind_eq_some_iff.mp carried
    exact (ofDeclaredFor? isDeclared).ofCarryOver? isCarried
  simp only [resolve?, Option.orElse_eq_orElse, Option.orElse_eq_or, Option.or_eq_some_iff]
    at resolved
  rcases resolved with own | ⟨_, common | ⟨_, another | ⟨_, inferred⟩⟩⟩
  · exact ofDeclaredFor? own
  · exact ofCarried common
  · obtain ⟨source, _, carried⟩ := List.exists_of_findSome?_eq_some another
    exact ofCarried carried
  · exact ofInfer? inferred

end Declarable

end ColumnType

end RelationalAccess
