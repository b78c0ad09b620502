import Multicall.Batch.Settings
import Multicall.Settings.Layer
import Multicall.Settings.Source
/-!
The settings of the server, from a file and the environment, which wins. Values are converted to
the kind that a field has, and anything missing that has no default is an error.
-/
namespace Multicall

structure ServerSettings where
  httpAddr : String
  endpoint : String
  assumeSecure : Bool
  maxBodyBytes : Nat
  maxConnections : Option Nat

structure LoggingSettings where
  logDir : String
  stdoutLevel : String
  fileLevel : String

structure Settings where
  server : ServerSettings
  dispatch : BatchSettings
  logging : LoggingSettings

namespace Settings

/-- A field that is there is converted, one that is not has its default. -/
def fieldOr {α : Type} (default : α) (convert : Value → Except SettingsError α) (name : String)
    (group : Group) : Except SettingsError α :=
  match group.get? name with
  | some v => convert v
  | none => .ok default

/-- A field that may be missing; `null` says that it is. -/
def field? {α : Type} (convert : Value → Except SettingsError α) (name : String)
    (group : Group) : Except SettingsError (Option α) :=
  match group.get? name with
  | none | some .null => .ok none
  | some v => (convert v).map some

/-- A field without which there are no settings. It is only converted here, so that conversions
are tried before anything is found missing. -/
def given? {α : Type} (convert : Value → Except SettingsError α) (name : String)
    (group : Group) : Except SettingsError (Option α) :=
  fieldOr none (fun v => (convert v).map some) name group

/-- A field that has to be there. -/
def needed {α : Type} : Option α → Except SettingsError α
  | some a => .ok a
  | none => .error .missing

/-- A section of the settings: the names of its fields in order, how many of them a plain list of
values has to fill, and how the section is read. -/
structure Section (α : Type) where
  fields : List String
  least : Nat
  read : Group → Except SettingsError α

def serverSection : Section ServerSettings where
  fields := ["http_addr", "endpoint", "assume_secure", "max_body_bytes", "max_connections"]
  least := 5
  read group := do
    let httpAddr ← given? toText "http_addr" group
    let endpoint ← fieldOr "/batch" toText "endpoint" group
    let assumeSecure ← fieldOr false toBool "assume_secure" group
    let maxBodyBytes ← fieldOr (1024 * 1024) toCount "max_body_bytes" group
    let maxConnections ← field? toCount "max_connections" group
    return ⟨← needed httpAddr, endpoint, assumeSecure, maxBodyBytes, maxConnections⟩

def dispatchSection : Section BatchSettings where
  fields := ["debug", "route_dir", "max_entries", "chunk_size"]
  least := 3
  read group := do
    let debug ← fieldOr false toBool "debug" group
    let routeDirectory ← field? toText "route_dir" group
    let maxEntries ← field? toCount "max_entries" group
    let chunkSize ← fieldOr BatchSettings.defaultChunkSize toCount "chunk_size" group
    return ⟨debug, routeDirectory, maxEntries, chunkSize⟩

def loggingSection : Section LoggingSettings where
  fields := ["log_dir", "stdout_level", "file_level"]
  least := 3
  read group := do
    let logDir ← given? toText "log_dir" group
    let stdoutLevel ← given? toText "stdout_level" group
    let fileLevel ← given? toText "file_level" group
    return ⟨← needed logDir, ← needed stdoutLevel, ← needed fileLevel⟩

/-- A section, if it is there: a group of its fields, or a list of their values in order. -/
def Section.find? {α : Type} (s : Section α) (name : String) (group : Group) :
    Except SettingsError (Option α) :=
  match group.get? name with
  | none => .ok none
  | some (.group entries) => (s.read entries).map some
  | some (.list items) => do
      let values ← s.read (s.fields.zip items)
      if items.length < s.least then throw .missing
      return some values
  | some _ => .error .missing

def ofGroup (group : Group) : Except SettingsError Settings := do
  let server ← serverSection.find? "server" group
  let dispatch ← dispatchSection.find? "dispatch" group
  let logging ← loggingSection.find? "logging" group
  return ⟨← needed server, dispatch.getD .standard, ← needed logging⟩

/-- The entries of the file that a path means. A file that holds no group has none. -/
def readFile (tree : FileTree) (path : String) : Except SettingsError Group :=
  match source? tree path with
  | none => .error .fileUnreadable
  | some (path, read) =>
      match tree.read path with
      | .error _ => .error .fileUnreadable
      | .ok text =>
          match read text with
          | some value => .ok (entriesOf (some value))
          | none => .error .fileText

def load (tree : FileTree) (path : String) (environment : List (String × String)) :
    Except SettingsError Settings := do
  let root := withEnvironment (ofFile (← readFile tree path)) environment
  ofGroup (entriesOf (some root))

end Settings
end Multicall
