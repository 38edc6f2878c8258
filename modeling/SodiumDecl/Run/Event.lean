import SodiumDecl.Declaration.Profile
import SodiumDecl.Files.Path

/-!
# Events

What a run tells about its steps: a level, a message and named fields.
-/

namespace SodiumDecl

/-- How much an event matters. -/
inductive Level
  | debug
  | info
  | warn
  deriving DecidableEq, Repr

/-- The name of a level. -/
def Level.label : Level → String
  | .debug => "DEBUG"
  | .info => "INFO"
  | .warn => "WARN"

/-- A step of a run. -/
inductive Event
  | versionIgnored (version : String)
  | downloading (library url : String)
  | extracted (entries : Nat) (destination : Path)
  | usingCorpus (version : String) (root : Path)
  | corpusLoaded (functions constants : Nat)
  | filtered (profile : Profile) (constantsSkipped functionsSkipped : Nat)
  | written (path : Path)
  | scratchRemoved (path : Path)
  deriving DecidableEq, Repr

namespace Event

/-- The level of an event. -/
def level : Event → Level
  | .versionIgnored _ => .warn
  | .downloading _ _ | .usingCorpus _ _ | .written _ => .info
  | .extracted _ _ | .corpusLoaded _ _ | .filtered _ _ _ | .scratchRemoved _ => .debug

/-- The message of an event. -/
def message : Event → String
  | .versionIgnored v => s!"ignoring requested version {v} because a local corpus was given"
  | .downloading library url => s!"Downloading {library} from \"{url}\" ..."
  | .extracted _ _ => "archive extracted"
  | .usingCorpus _ _ => "using libsodium.js corpus"
  | .corpusLoaded _ _ => "corpus loaded"
  | .filtered _ _ _ => "applied profile filter"
  | .written _ => "declarations written"
  | .scratchRemoved _ => "removed scratch directory"

/-- The fields of an event. -/
def fields : Event → List (String × String)
  | .versionIgnored _ | .downloading _ _ => []
  | .extracted entries dest => [("entries", toString entries), ("dest", dest.text)]
  | .usingCorpus version root => [("version", version), ("root", root.text)]
  | .corpusLoaded functions constants =>
    [("functions", toString functions), ("constants", toString constants)]
  | .filtered p constants functions =>
    [("profile", p.label), ("constants_skipped", toString constants),
      ("functions_skipped", toString functions)]
  | .written path => [("path", path.text)]
  | .scratchRemoved path => [("path", path.text)]

end Event

end SodiumDecl
