import RelationalAccess.Number.Numeral

/-!
Settings of a database's cache: limits on its size and on the age of what it
holds, how often it is cleaned up, what its indices keep, and what goes first.
-/

namespace RelationalAccess

/-- What a limit bounds, and in which unit. -/
inductive LimitKind where
  | rows
  | bytes
  | kilobytes
  | megabytes
  | gigabytes
  | seconds
  | minutes
  | hours
  deriving DecidableEq

namespace LimitKind

def name : LimitKind → String
  | rows => "Rows"
  | bytes => "Bytes"
  | kilobytes => "Kilobytes"
  | megabytes => "Megabytes"
  | gigabytes => "Gigabytes"
  | seconds => "Seconds"
  | minutes => "Minutes"
  | hours => "Hours"

def all : List LimitKind :=
  [rows, bytes, kilobytes, megabytes, gigabytes, seconds, minutes, hours]

end LimitKind

/-- The greatest amount that a limit can state, once it is in its least unit. -/
def Limit.greatest : Nat := Nat.pow 2 64 - 1

/-- One ceiling. Kinds of size bound the cache, kinds of time bound the age of an entry. -/
structure Limit where
  kind : LimitKind
  value : Nat
  deriving DecidableEq

namespace Limit

/-- An amount of a unit in its least parts, cut off at the greatest amount. -/
def scaled (value unit : Nat) : Nat := min (value * unit) greatest

/-- The ceiling in octets, for a limit of size. -/
def bytes? (limit : Limit) : Option Nat :=
  match limit.kind with
  | .bytes => some (scaled limit.value 1)
  | .kilobytes => some (scaled limit.value 1024)
  | .megabytes => some (scaled limit.value (1024 * 1024))
  | .gigabytes => some (scaled limit.value (1024 * 1024 * 1024))
  | _ => none

/-- The greatest age in seconds, for a limit of time. -/
def seconds? (limit : Limit) : Option Nat :=
  match limit.kind with
  | .seconds => some (scaled limit.value 1)
  | .minutes => some (scaled limit.value 60)
  | .hours => some (scaled limit.value 3600)
  | _ => none

/-- The ceiling in rows, for a limit on their number. -/
def rows? (limit : Limit) : Option Nat :=
  match limit.kind with
  | .rows => some limit.value
  | _ => none

end Limit

/-- The unit of the time between two cleanups. -/
inductive CleanupUnit where
  | seconds
  | minutes
  | hours
  deriving DecidableEq

namespace CleanupUnit

def name : CleanupUnit → String
  | seconds => "Seconds"
  | minutes => "Minutes"
  | hours => "Hours"

def all : List CleanupUnit := [seconds, minutes, hours]

def inSeconds : CleanupUnit → Nat
  | seconds => 1
  | minutes => 60
  | hours => 3600

end CleanupUnit

/-- The time between two cleanups. -/
structure Cleanup where
  unit : CleanupUnit
  value : Nat
  deriving DecidableEq

/-- The time between two cleanups in seconds, at least one. -/
def Cleanup.interval (cleanup : Cleanup) : Nat :=
  max (Limit.scaled cleanup.value cleanup.unit.inSeconds) 1

/-- What is kept of the key lists found by an indexed column. -/
inductive IndexStrategy where
  | off
  | all
  /-- At most so many keys are kept for each indexed column. -/
  | atMost (keys : Nat)
  deriving DecidableEq

/-- The text of a strategy that shows it. -/
def IndexStrategy.inspect : IndexStrategy → String
  | off => "None"
  | all => "All"
  | atMost keys => "MaxRows(" ++ String.ofList (Numeral.decimal keys) ++ ")"

/-- What is evicted first where a limit is passed. -/
inductive EvictionPolicy where
  | oldestFirst
  | largestFirst
  deriving DecidableEq

namespace EvictionPolicy

def name : EvictionPolicy → String
  | oldestFirst => "OldestFirst"
  | largestFirst => "LargestFirst"

def all : List EvictionPolicy := [oldestFirst, largestFirst]

end EvictionPolicy

/-- The settings of one database's cache. -/
structure CacheSettings where
  useCache : Bool := true
  limits : List Limit := []
  cleanup : Option Cleanup := none
  indexCache : Option IndexStrategy := none
  eviction : EvictionPolicy := .oldestFirst
  deriving DecidableEq

/-- What makes settings unusable. -/
inductive SettingsFault where
  | zeroLimit (kind : LimitKind)
  | zeroIndexKeys
  deriving DecidableEq

namespace CacheSettings

/-- The first fault of some settings: a limit of zero, or an index that may keep no key. -/
def fault? (settings : CacheSettings) : Option SettingsFault :=
  match settings.limits.find? (·.value == 0) with
  | some limit => some (.zeroLimit limit.kind)
  | none => if settings.indexCache = some (.atMost 0) then some .zeroIndexKeys else none

/-- The settings with what is left open filled in. Without caching nothing is filled in. -/
def withDefaults (settings : CacheSettings) : CacheSettings :=
  if settings.useCache then
    { settings with
      limits := if settings.limits.isEmpty then [⟨.megabytes, 256⟩] else settings.limits
      cleanup := settings.cleanup <|> some ⟨.minutes, 5⟩
      indexCache := settings.indexCache <|> some .all }
  else settings

/-- What the indices keep: nothing without caching, everything unless it is said otherwise. -/
def indexStrategy (settings : CacheSettings) : IndexStrategy :=
  if settings.useCache then settings.indexCache.getD .all else .off

def cleanupInterval? (settings : CacheSettings) : Option Nat := settings.cleanup.map Cleanup.interval

/-- The lowest ceiling in octets. -/
def maxBytes? (settings : CacheSettings) : Option Nat := (settings.limits.filterMap Limit.bytes?).min?

/-- The lowest ceiling in rows. -/
def maxRows? (settings : CacheSettings) : Option Nat := (settings.limits.filterMap Limit.rows?).min?

/-- The lowest age in seconds. -/
def maxAge? (settings : CacheSettings) : Option Nat := (settings.limits.filterMap Limit.seconds?).min?

end CacheSettings

end RelationalAccess
