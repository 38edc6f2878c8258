import SodiumDecl.Archive.Extract
import SodiumDecl.Corpus
import SodiumDecl.Settings.Basic

/-!
# Finding a corpus

A run uses a corpus that is there already, or downloads the archive of a release into a
scratch directory. The version to download has to pass the gate before anything is
requested, and the version that a corpus itself names has to pass it in either case.

Whatever fails after the scratch directory is made, the directory is removed. If nothing
fails it belongs to the `CorpusRoot`, until `CorpusRoot.release` removes it.
-/

namespace SodiumDecl

/-- A corpus that can be used, its version, and the scratch directory if it has one. -/
structure CorpusRoot where
  path : Path
  version : String
  scratch : Option Path
  deriving DecidableEq, Repr

/-- What finds and fetches a corpus: the settings, the fetcher, and the directory in which
scratch directories are made. -/
structure Provider where
  settings : Settings
  fetcher : Fetcher
  temporary : Path

/-! ## The scratch directory -/

/-- How the names of scratch directories start. -/
def scratchStem : String := "sodium-typegen-"

/-- The name of a downloaded archive. -/
def archiveName : String := "libsodium.zip"

/-- Make a scratch directory for a download. -/
def makeScratch (temporary : Path) (url : String) : Run Path := do
  let files ← Run.files
  let scratch := files.freshPath temporary scratchStem
  match files.create scratch .directory with
  | .error e => throw (.fetch url (.scratch e))
  | .ok t =>
    Run.setFiles t
    return scratch

/-- Remove a scratch directory. -/
def removeScratch (scratch : Path) : Run Unit := do
  Run.setFiles ((← Run.files).remove scratch)
  Run.log (.scratchRemoved scratch)

/-- A corpus is not needed any more. -/
def CorpusRoot.release (root : CorpusRoot) : Run Unit :=
  match root.scratch with
  | some scratch => removeScratch scratch
  | none => return ()

/-- The corpus is a download. -/
def CorpusRoot.isEphemeral (root : CorpusRoot) : Bool := root.scratch.isSome

/-! ## The gate and the download -/

/-- Refuse a version that is malformed or below the minimum. -/
def checkVersion (s : Settings) (version : String) : Run Unit :=
  Run.ofExcept ((Version.check version s.minimumVersion).mapError .version)

/-- Request an address and put what is delivered into a scratch directory. -/
def fetch (fetcher : Fetcher) (url : String) (scratch : Path) : Run Unit := do
  let archive := scratch / archiveName
  let delivery := fetcher url
  modify fun w => { w with
    requests := w.requests ++ [⟨url, archive⟩]
    progress := w.progress ++ delivery.progress }
  Run.setFiles ((← Run.files).putBelow scratch delivery.leftovers)
  match delivery.outcome with
  | .refused reason => throw (.fetch url (.refused reason))
  | .nothing => return ()
  | .delivered contents =>
    match (← Run.files).create archive (.file contents) with
    | .error e => throw (.fetch url (.refused e.message))
    | .ok t => Run.setFiles t

/-- Download and unpack a release into a scratch directory. The result is the directory of
the release. -/
def download (p : Provider) (version url : String) (scratch : Path) : Run Path := do
  let archive := scratch / archiveName
  fetch p.fetcher url scratch
  Archive.extract archive scratch
  Run.setFiles ((← Run.files).remove archive)
  return scratch / p.settings.archiveRoot version

/-! ## Resolving -/

/-- Accept the corpus at a path. -/
def accept (s : Settings) (path : Path) (scratch : Option Path) : Run CorpusRoot := do
  let version ← Run.ofExcept (checkSource (← Run.files) path)
  checkVersion s version
  Run.log (.usingCorpus version path)
  return ⟨path, version, scratch⟩

/-- Use the corpus at a path if one is given, otherwise download a version, by default the
one that the settings name. -/
def resolve (p : Provider) (base : Option Path) (version : Option String) : Run CorpusRoot := do
  match base with
  | some path =>
    if let some v := version then Run.log (.versionIgnored v)
    accept p.settings path none
  | none =>
    let version := version.getD p.settings.defaultVersion
    checkVersion p.settings version
    let url := p.settings.archiveUrl version
    Run.log (.downloading p.settings.library url)
    let scratch ← makeScratch p.temporary url
    Run.onFailure (removeScratch scratch) do
      let path ← download p version url scratch
      accept p.settings path (some scratch)

end SodiumDecl
