import SodiumDecl.Assembly
import SodiumDecl.Error

/-!
# Corpora in a file tree

A corpus is a directory with the descriptions of a release: a file for each symbol in
`wrapper/symbols`, all constants in `wrapper/constants.json`, and the version of the
release in `package.json`.

`checkSource` looks whether the layout is there and gives the version. `Corpus.load` reads
the descriptions, adds the hand-written ones of a catalog and sorts both collections by
name, equal names in the order in which they were read. No two symbols may share a name.
-/

namespace SodiumDecl

/-- The directory of the symbol files. -/
def symbolsDirectory (root : Path) : Path := root / "wrapper" / "symbols"

/-- The file of the constants. -/
def constantsFile (root : Path) : Path := root / "wrapper" / "constants.json"

/-- The file that holds the version. -/
def packageFile (root : Path) : Path := root / "package.json"

/-- The paths of the entries of a directory. The first entry that cannot be read is a fault, and
the directory is named. -/
def entryPaths (dir : Path) (entries : List (Except FileError Path)) : Except Error (List Path) :=
  entries.mapM fun entry => entry.mapError fun e => .descriptor dir (.unreadable e)

/-! ## Layout -/

/-- The version that a corpus says it has. -/
def packageVersion (files : FileTree) (root : Path) : Except Error String :=
  let path := packageFile root
  match files.readText path with
  | .error e => .error (.metadata path (.unreadable e))
  | .ok text =>
    match Json.value? text with
    | none => .error (.metadata path .malformed)
    | some v =>
      match (v.member? "version").bind Json.Value.string? with
      | some version => .ok version
      | none => .error (.metadata path .noVersion)

/-- The name of an entry marks it as a description. -/
def isDescriptorName (name : String) : Bool := Text.contains "json" name

/-- Check the layout of a corpus and give its version. -/
def checkSource (files : FileTree) (root : Path) : Except Error String := do
  let symbols := symbolsDirectory root
  let constants := constantsFile root
  let entries ← (files.readDirectory symbols).mapError fun _ => .integrity symbols .noSymbols
  let _ ← (files.readBytes constants).mapError fun _ => .integrity constants .noConstants
  let paths ← entryPaths symbols entries
  if paths.any fun path => path.fileName?.any isDescriptorName then packageVersion files root
  else throw (.integrity symbols .noDescriptors)

/-! ## Loading -/

/-- The symbol that a file describes. -/
def readSymbol (files : FileTree) (path : Path) : Except Error Wrapper.Symbol :=
  match files.readText path with
  | .error e => .error (.descriptor path (.unreadable e))
  | .ok text => (Wrapper.Symbol.parse text).mapError fun f => .descriptor path (.invalid f)

/-- The constants that a file lists. -/
def readConstants (files : FileTree) (path : Path) : Except Error (List Wrapper.Constant) :=
  match files.readText path with
  | .error e => .error (.descriptor path (.unreadable e))
  | .ok text => (Wrapper.Constant.parseList text).mapError fun f => .descriptor path (.invalid f)

/-- The symbols of the files in a directory. -/
def readSymbols (files : FileTree) (dir : Path) : Except Error (List Wrapper.Symbol) := do
  let entries ← (files.readDirectory dir).mapError fun _ => .integrity dir .noSymbols
  let paths ← entryPaths dir entries
  (paths.filter files.isFile).mapM (readSymbol files)

/-- Insert an element before the first one whose name is not smaller. -/
def insertByName {α : Type} (name : α → String) (x : α) : List α → List α
  | [] => [x]
  | y :: ys => if name x ≤ name y then x :: y :: ys else y :: insertByName name x ys

/-- Sort by name, keeping the order of equal names. -/
def sortByName {α : Type} (name : α → String) (xs : List α) : List α :=
  xs.foldr (insertByName name) []

/-- The first name that stands twice in a row. -/
def duplicate? : List String → Option String
  | a :: b :: rest => if a = b then some a else duplicate? (b :: rest)
  | _ => none

namespace Corpus

/-- The symbols of a corpus with the hand-written ones, sorted. -/
def loadFunctions (files : FileTree) (c : Catalog) (root : Path) :
    Except Error (List Wrapper.Symbol) := do
  let read ← readSymbols files (symbolsDirectory root)
  let functions := sortByName (·.name) (read ++ c.auxiliarySymbols)
  match duplicate? (functions.map (·.name)) with
  | some n => throw (.integrity (symbolsDirectory root) (.duplicateSymbol n))
  | none => return functions

/-- Load a corpus. -/
def load (files : FileTree) (c : Catalog) (root : Path) : Except Error Corpus := do
  let functions ← loadFunctions files c root
  let read ← readConstants files (constantsFile root)
  return { functions, constants := sortByName (·.name) (read ++ [c.ready]) }

end Corpus

end SodiumDecl
