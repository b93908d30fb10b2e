import RelationalAccess.Error
import RelationalAccess.Settings.Document

/-!
Cache settings from a document. A record is written with named entries, in any
order and each at most once, or as the list of its fields in order; entries of
other names are passed over. What is left out of the settings keeps its default.
-/

namespace RelationalAccess

namespace Document

def asBool? : Document → Option Bool
  | .bool value => some value
  | _ => none

def asWhole? : Document → Option Nat
  | .whole value => some value
  | _ => none

/-- A document that may be null. -/
def asOptional? (decode : Document → Option α) : Document → Option (Option α)
  | .null => some none
  | document => (decode document).map some

/-- A name that stands alone, or with a null as its content. -/
def asName? : Document → Option String
  | .text content => content
  | .record [(name, .null)] => name
  | _ => none

/-- One of some named values. -/
def asNamed? (all : List α) (name : α → String) (document : Document) : Option α := do
  let given ← document.asName?
  all.find? fun candidate => name candidate == given

/-- The contents of some fields of a record. A name that cannot be decoded or a
field given twice spoils the record, and so does a list with too many items. -/
def fields? (names : List String) : Document → Option (List (Option Document))
  | .list items =>
    if items.length ≤ names.length then some ((List.range names.length).map (items[·]?)) else none
  | .record entries => do
    let named ← entries.mapM fun (name, content) => name.map (·, content)
    let known := (named.map Prod.fst).filter names.contains
    if known.eraseDups.length = known.length then some (names.map fun name => named.lookup name) else none
  | _ => none

/-- The content of a field, or a default for one left out. -/
def fieldOr (absent : Option α) (decode : Document → Option α) : Option Document → Option α
  | none => absent
  | some document => decode document

def asLimit? (document : Document) : Option Limit := do
  match ← fields? ["kind", "value"] document with
  | [kind, value] =>
    return ⟨← fieldOr none (asNamed? LimitKind.all LimitKind.name) kind, ← fieldOr none asWhole? value⟩
  | _ => none

def asCleanup? (document : Document) : Option Cleanup := do
  match ← fields? ["kind", "value"] document with
  | [kind, value] =>
    return ⟨← fieldOr none (asNamed? CleanupUnit.all CleanupUnit.name) kind,
      ← fieldOr none asWhole? value⟩
  | _ => none

def asLimits? : Document → Option (List Limit)
  | .list items => items.mapM asLimit?
  | _ => none

def asIndexStrategy? : Document → Option IndexStrategy
  | .record [(some "MaxRows", .whole most)] => some (.atMost most)
  | document =>
    match document.asName? with
    | some "None" => some .off
    | some "All" => some .all
    | _ => none

def settingNames : List String := ["use_cache", "limits", "cleanup", "index_cache", "eviction"]

def asSettings? (document : Document) : Option CacheSettings := do
  match ← fields? settingNames document with
  | [useCache, limits, cleanup, indexCache, eviction] =>
    return {
      useCache := ← fieldOr (some true) asBool? useCache
      limits := ← fieldOr (some []) asLimits? limits
      cleanup := ← fieldOr (some none) (asOptional? asCleanup?) cleanup
      indexCache := ← fieldOr (some none) (asOptional? asIndexStrategy?) indexCache
      eviction := ← fieldOr (some .oldestFirst) (asNamed? EvictionPolicy.all EvictionPolicy.name)
        eviction }
  | _ => none

end Document

/-- Reads settings and checks them. -/
def CacheSettings.ofText? (text : String) : Except Error CacheSettings :=
  match (Document.ofText? text).bind Document.asSettings? with
  | none => .error .unreadableSettings
  | some settings =>
    match settings.fault? with
    | some fault => .error (.settings fault)
    | none => .ok settings

end RelationalAccess
