import SodiumDecl.Files.Access
import SodiumDecl.Json.Decode
import SodiumDecl.Version

/-!
# Errors

Why a run fails. Each error names the path or address at fault and holds its cause. An
`ErrorKind` says how an error of that kind is worded around its subject and its reason.
-/

namespace SodiumDecl

/-- The kinds of errors. -/
inductive ErrorKind
  | version
  | fetch
  | integrity
  | metadata
  | descriptor
  | output
  | config
  deriving DecidableEq, Repr

/-- The text of an error about a subject. A version error has no subject beside its reason. -/
def ErrorKind.describe (kind : ErrorKind) (subject reason : String) : String :=
  match kind with
  | .version => s!"version error: {reason}"
  | .fetch => s!"fetch error: request to {subject} failed: {reason}"
  | .integrity => s!"corpus integrity error: {reason}: {subject}"
  | .metadata => s!"corpus metadata error: {subject}: {reason}"
  | .descriptor => s!"descriptor parse error: could not parse {subject}: {reason}"
  | .output => s!"output write error: {subject}: {reason}"
  | .config => s!"config error: {subject}: {reason}"

/-- Why a download fails: the fetcher gives a reason, or there is no place to download to. -/
inductive FetchFault
  | refused (reason : String)
  | scratch (fault : FileError)
  deriving DecidableEq, Repr

/-- What the layout of a corpus lacks. -/
inductive LayoutFault
  | noSymbols
  | noConstants
  | noDescriptors
  | duplicateSymbol (name : String)
  deriving DecidableEq, Repr

/-- Why the version of a corpus cannot be read. -/
inductive MetadataFault
  | unreadable (fault : FileError)
  | malformed
  | noVersion
  deriving DecidableEq, Repr

/-- Why a description cannot be read. -/
inductive DescriptorFault
  | unreadable (fault : FileError)
  | invalid (fault : Json.Fault)
  deriving DecidableEq, Repr

/-- Why a configuration file cannot be read. -/
inductive ConfigFault
  | unreadable (fault : FileError)
  | invalid
  deriving DecidableEq, Repr

/-- Why a run fails. -/
inductive Error
  | version (fault : VersionError)
  | fetch (url : String) (fault : FetchFault)
  | archive (path : Path)
  | integrity (path : Path) (fault : LayoutFault)
  | metadata (path : Path) (fault : MetadataFault)
  | descriptor (path : Path) (fault : DescriptorFault)
  | output (path : Path) (fault : FileError)
  | config (path : Path) (fault : ConfigFault)
  deriving DecidableEq, Repr

/-- The reason of a failed download. -/
def FetchFault.reason : FetchFault → String
  | .refused r => r
  | .scratch e => "could not create temp dir: " ++ e.message

/-- The reason of a layout fault. -/
def LayoutFault.reason : LayoutFault → String
  | .noSymbols => "symbols directory not found"
  | .noConstants => "constants file not found"
  | .noDescriptors => "no symbol descriptor files found"
  | .duplicateSymbol n => s!"duplicate symbol name \"{n}\""

/-- The reason of a metadata fault. -/
def MetadataFault.reason : MetadataFault → String
  | .unreadable e => "could not read package metadata: " ++ e.message
  | .malformed => "invalid JSON: " ++ Json.Fault.message .malformed
  | .noVersion => "missing \"version\" string"

/-- The reason of a fault in a description. -/
def DescriptorFault.reason : DescriptorFault → String
  | .unreadable e => e.message
  | .invalid f => f.message

/-- The reason of a fault in a configuration file. Faults of its text are not told apart. -/
def ConfigFault.reason : ConfigFault → String
  | .unreadable e => e.message
  | .invalid => "<toml>"

namespace Error

/-- The kind of an error. -/
def kind : Error → ErrorKind
  | .version _ => .version
  | .fetch _ _ | .archive _ => .fetch
  | .integrity _ _ => .integrity
  | .metadata _ _ => .metadata
  | .descriptor _ _ => .descriptor
  | .output _ _ => .output
  | .config _ _ => .config

/-- The text of an error. What is wrong with an archive is not told. -/
def message : Error → String
  | .version f => ErrorKind.version.describe "" f.message
  | .fetch u f => ErrorKind.fetch.describe u f.reason
  | .archive p => s!"fetch error: request to {p.text} failed"
  | .integrity p f => ErrorKind.integrity.describe p.text f.reason
  | .metadata p f => ErrorKind.metadata.describe p.text f.reason
  | .descriptor p f => ErrorKind.descriptor.describe p.text f.reason
  | .output p f => ErrorKind.output.describe p.text f.message
  | .config p f => ErrorKind.config.describe p.text f.reason

end Error

end SodiumDecl
