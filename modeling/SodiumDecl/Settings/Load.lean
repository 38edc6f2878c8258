import SodiumDecl.Error
import SodiumDecl.Settings.Basic
import SodiumDecl.Toml.Reader

/-!
# Loading settings

Settings are read from a configuration file: the one that is named, else the user's own,
if it is there, else none. A setting that the file does not name keeps its default, and a
name in the file that is no setting is ignored.
-/

namespace SodiumDecl

/-- Where a user keeps files: the directory of configurations and the home directory that
the environment names, and the home directory of the account. The directory of configurations is
none also when the value that the environment has for it is no text. -/
structure Environment where
  configHome : Option String := none
  home : Option String := none
  accountHome : Option String := none

namespace Environment

/-- The home directory. An empty name counts as none. -/
def homeDirectory? (e : Environment) : Option Path :=
  match e.home with
  | some h => if h.isEmpty then e.accountHome.map Path.mk else some ⟨h⟩
  | none => e.accountHome.map Path.mk

/-- The directory of configurations. An empty name counts. -/
def configDirectory? (e : Environment) : Option Path :=
  match e.configHome with
  | some c => some ⟨c⟩
  | none => e.homeDirectory?.map (· / ".config")

/-- The configuration file of the user. -/
def configFile? (e : Environment) : Option Path :=
  e.configDirectory?.map fun d => d / "sodium-typegen" / "config.toml"

end Environment

namespace Settings

/-- The setting of a name, unless its value is no text. -/
def setting? (ms : Toml.Members) (name default : String) : Option String :=
  match ms.lookup name with
  | none => some default
  | some (.text s) => some s
  | some _ => none

/-- The settings that a table holds. -/
def ofTable? (ms : Toml.Members) : Option Settings := do
  let base : Settings := {}
  return {
    archiveTemplate := ← setting? ms "archive_url" base.archiveTemplate
    library := ← setting? ms "library" base.library
    defaultVersion := ← setting? ms "default_version" base.defaultVersion
    minimumVersion := ← setting? ms "minimum_version" base.minimumVersion }

/-- The settings of a configuration file. -/
def loadFile (files : FileTree) (path : Path) : Except Error Settings :=
  match files.readText path with
  | .error e => .error (.config path (.unreadable e))
  | .ok text =>
    match (Toml.read? text).bind ofTable? with
    | some s => .ok s
    | none => .error (.config path .invalid)

/-- The settings of a run. -/
def load (files : FileTree) (env : Environment) (named : Option Path) : Except Error Settings :=
  match named with
  | some path => loadFile files path
  | none =>
    match env.configFile? with
    | some path => if files.isFile path then loadFile files path else .ok {}
    | none => .ok {}

/-! ## Settings in a value -/

/-- A member of a description of settings. -/
inductive Member
  | archiveTemplate (s : String)
  | library (s : String)
  | defaultVersion (s : String)
  | minimumVersion (s : String)

/-- The settings that the members describe. -/
def ofMembers (ms : List Member) : Settings :=
  let base : Settings := {}
  { archiveTemplate :=
      Json.optional base.archiveTemplate (fun | .archiveTemplate s => some s | _ => none) ms
    library := Json.optional base.library (fun | .library s => some s | _ => none) ms
    defaultVersion :=
      Json.optional base.defaultVersion (fun | .defaultVersion s => some s | _ => none) ms
    minimumVersion :=
      Json.optional base.minimumVersion (fun | .minimumVersion s => some s | _ => none) ms }

/-- How settings are read. -/
def schema : Json.Schema Member Settings where
  title := "GeneratorConfig"
  fields := [
    ("archive_url", fun t => (Json.readString t).map .archiveTemplate),
    ("library", fun t => (Json.readString t).map .library),
    ("default_version", fun t => (Json.readString t).map .defaultVersion),
    ("minimum_version", fun t => (Json.readString t).map .minimumVersion)]
  build ms := .ok (ofMembers ms)

/-- The settings that a value describes. -/
def ofValue (v : Json.Value) : Except Json.Fault Settings := schema.read .value v.tree

/-- The description of settings. -/
def value (s : Settings) : Json.Value :=
  .ofMembers [
    ("archive_url", .string s.archiveTemplate),
    ("library", .string s.library),
    ("default_version", .string s.defaultVersion),
    ("minimum_version", .string s.minimumVersion)]

end Settings

end SodiumDecl
