import SodiumDecl.Run.Draft
import SodiumDecl.Source

/-!
# Generating declarations

A run finds a corpus, loads it, assembles the document of a profile and writes its text.
The file is put in place only once the document is complete, and a downloaded corpus is
removed at the end of the run, whether it fails or not.
-/

namespace SodiumDecl

/-- What is to be generated: the file to write, or a directory for it, a corpus that is
there already or a version to download, and the profile. -/
structure Options where
  output : Path
  base : Option Path := none
  version : Option String := none
  profile : Profile := .standard

/-- What was generated. -/
structure Report where
  output : Path
  version : String
  profile : Profile
  constants : Nat
  functions : Nat
  overloads : Nat
  deriving DecidableEq, Repr

/-- The file to write: in a directory, the one with the name of the profile. -/
def outputPath (files : FileTree) (output : Path) (p : Profile) : Path :=
  if files.isDirectory output then output / p.fileName else output

/-- The report on a document. -/
def Document.report (d : Document) (output : Path) (p : Profile) : Report where
  output
  version := d.version
  profile := p
  constants := d.constants.length
  functions := d.functions.length
  overloads := (d.functions.flatMap (·.overloads)).length

/-- Load the corpus at a path. -/
def loadCorpus (c : Catalog) (root : Path) : Run Corpus := do
  let corpus ← Run.ofExcept (Corpus.load (← Run.files) c root)
  Run.log (.corpusLoaded corpus.functions.length corpus.constants.length)
  return corpus

/-- Assemble the document of a corpus. -/
def assembleDocument (c : Catalog) (corpus : Corpus) (p : Profile) (version : String) :
    Run Document := do
  let d := c.assemble corpus p version
  Run.log (.filtered p (corpus.constants.length - d.constants.length)
    (corpus.functions.length - d.functions.length))
  return d

/-- Write the text of a document. -/
def writeDocument (d : Document) (path : Path) : Run Unit := do
  writeAtomically path d.render.toUTF8
  Run.log (.written path)

/-- Generate the declarations of a corpus. -/
def generateFrom (c : Catalog) (root : CorpusRoot) (o : Options) : Run Report := do
  let corpus ← loadCorpus c root.path
  let d ← assembleDocument c corpus o.profile root.version
  let path := outputPath (← Run.files) o.output o.profile
  writeDocument d path
  return d.report path o.profile

/-- Generate declarations. -/
def generate (p : Provider) (c : Catalog) (o : Options) : Run Report := do
  let root ← resolve p o.base o.version
  Run.andThen root.release (generateFrom c root o)

end SodiumDecl
