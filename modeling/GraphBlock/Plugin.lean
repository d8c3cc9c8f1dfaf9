import GraphBlock.Value.Equality
import GraphBlock.Value.Written

/-!
The configuration that a host stores for the plugin, as an untyped record. Loading fills missing
keys with defaults and stamps the version; saving gives a record that loads as the same settings.
-/

namespace GraphBlock

structure CacheSettings where
  enabled : Bool
  location : CacheLocation
  directory : Value
  deriving Repr

structure PluginSettings where
  version : Value
  legacyApi : Bool
  cache : CacheSettings
  deriving Repr

inductive PluginError
  | noEntries (value : Value)
  | unknownLocation (value : Value)
  deriving Repr

def PluginError.message : PluginError → Text
  | noEntries v => '\'' :: v.kindName ++ "' object has no attribute 'get'"
  | unknownLocation v =>
    "Unknown cache location " ++ v.shown ++ "; expected one of: " ++
      Value.commaSeparated ((Vocabulary.members (α := CacheLocation)).map Vocabulary.value)

def CacheLocation.ofValue? : Value → Option CacheLocation
  | .member (.cache location) => some location
  | .text t => Vocabulary.members.find? fun location => Vocabulary.value location == t
  | _ => none

namespace CacheSettings

def default : CacheSettings := ⟨true, .memory, .null⟩

/-- A key that is present counts even where its value is nothing. -/
def ofRecord (entries : List (Value × Value)) : Except PluginError CacheSettings :=
  let raw := (Value.lookup? (.text "location") entries).getD
    (.text (Vocabulary.value default.location))
  match CacheLocation.ofValue? raw with
  | none => .error (.unknownLocation raw)
  | some location => .ok {
      enabled := ((Value.lookup? (.text "enabled") entries).map Value.asFlag).getD default.enabled
      location := location
      directory := (Value.lookup? (.text "directory") entries).getD default.directory }

def toRecord (c : CacheSettings) : List (Value × Value) :=
  let directory : List (Value × Value) := match c.directory with
    | .null => []
    | d => [(.text "directory", d)]
  [(.text "enabled", .bool c.enabled), (.text "location", .text (Vocabulary.value c.location))] ++
    directory

/-- The cache entry of a record; one that is missing or false stands for an empty record. -/
def ofEntry : Option Value → Except PluginError CacheSettings
  | none => ofRecord []
  | some v =>
    if v.asFlag then
      match v with
      | .record entries => ofRecord entries
      | v => .error (.noEntries v)
    else ofRecord []

end CacheSettings

namespace PluginSettings

def default (version : Value) : PluginSettings := ⟨version, false, .default⟩

def load (record version : Value) : Except PluginError PluginSettings :=
  match record with
  | .null => .ok (default version)
  | .record entries =>
    (CacheSettings.ofEntry (Value.lookup? (.text "cache") entries)).map fun cache => {
      version := version
      legacyApi := ((Value.lookup? (.text "use_legacy_desmos_api") entries).map Value.asFlag).getD
        (default version).legacyApi
      cache := cache }
  | v => .error (.noEntries v)

def toRecord (p : PluginSettings) : List (Value × Value) :=
  [(.text "version", p.version), (.text "use_legacy_desmos_api", .bool p.legacyApi),
    (.text "cache", .record p.cache.toRecord)]

def migrationNote? (record version : Value) : Option Text :=
  match record with
  | .record entries =>
    let stored := (Value.lookup? (.text "version") entries).getD .null
    if stored.equal version then none
    else some ("migrating plugin settings from version " ++ stored.shown ++ " to " ++ version.shown)
  | _ => none

def loadThrough : (record : Value) → (versions : List Value) →
    Except PluginError (List (PluginSettings × Option Text))
  | _, [] => .ok []
  | record, version :: versions => do
    let settings ← load record version
    let rest ← loadThrough (.record settings.toRecord) versions
    return (settings, migrationNote? record version) :: rest

end PluginSettings

end GraphBlock
