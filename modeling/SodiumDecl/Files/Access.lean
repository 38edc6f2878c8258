import SodiumDecl.Files.Tree

/-!
# Paths in a file tree

`locate` follows a path from the root or from the working directory: every name but the
last has to lead to a directory. The operations on paths fail as a system call would.
-/

namespace SodiumDecl

/-- Why an operation on a path fails. A device gives reasons of its own. -/
inductive FileError
  | notFound
  | alreadyExists
  | notDirectory
  | isDirectory
  | nameTooLong
  | badName
  | badArgument
  | notText
  | device (reason : String)
  deriving DecidableEq, Repr

/-- The text of a failure. -/
def FileError.message : FileError → String
  | .notFound => "No such file or directory (os error 2)"
  | .alreadyExists => "File exists (os error 17)"
  | .notDirectory => "Not a directory (os error 20)"
  | .isDirectory => "Is a directory (os error 21)"
  | .nameTooLong => "File name too long (os error 36)"
  | .badName => "file name contained an unexpected NUL byte"
  | .badArgument => "Invalid argument (os error 22)"
  | .notText => "stream did not contain valid UTF-8"
  | .device reason => reason

namespace FileTree

/-! ## Following a path -/

/-- The length of the longest name, in bytes. -/
def nameLimit : Nat := 255

/-- The length from which a path is too long, in bytes. -/
def pathLimit : Nat := 4096

/-- The location that a name leads to from another. -/
def enter (t : FileTree) (base : Location) (name : String) : Except FileError Location :=
  match t.find? base with
  | none => .error .notFound
  | some (.file _) => .error .notDirectory
  | some .directory =>
    if name = "." then .ok base
    else if name = ".." then .ok base.dropLast
    else if nameLimit < name.utf8ByteSize then .error .nameTooLong
    else .ok (base ++ [name])

/-- The location that a path leads to, whether something is there or not. -/
def locate (t : FileTree) (p : Path) : Except FileError Location :=
  if p.hasNull then .error .badName
  else if p.text.isEmpty then .error .notFound
  else if pathLimit ≤ p.text.utf8ByteSize then .error .nameTooLong
  else p.names.foldlM t.enter (if p.isAbsolute then [] else t.home)

/-- The entry that a path leads to. -/
def entry (t : FileTree) (p : Path) : Except FileError Entry := do
  match t.find? (← t.locate p) with
  | none => throw .notFound
  | some (.file c) => if p.endsInSlash then throw .notDirectory else return .file c
  | some .directory => return .directory

/-- A path leads to a file. -/
def isFile (t : FileTree) (p : Path) : Bool :=
  match t.entry p with
  | .ok (.file _) => true
  | _ => false

/-- A path leads to a directory. -/
def isDirectory (t : FileTree) (p : Path) : Bool :=
  match t.entry p with
  | .ok .directory => true
  | _ => false

/-- The path from the root that leads where a path does. -/
def absolute (t : FileTree) (p : Path) : Path := Path.ofComponents true t.home / p.text

/-! ## Reading -/

/-- The names of the entries of a directory. -/
def list (t : FileTree) (p : Path) : Except FileError (List String) := do
  match ← t.entry p with
  | .directory => return t.namesIn (← t.locate p)
  | .file _ => throw .notDirectory

/-- The paths of the entries of a directory, one after another. An entry may fail to be read on
its own, but in a tree none does. -/
def readDirectory (t : FileTree) (p : Path) :
    Except FileError (List (Except FileError Path)) := do
  return (← t.list p).map fun n => .ok (p / n)

/-- The contents of a file. -/
def readBytes (t : FileTree) (p : Path) : Except FileError ByteArray := do
  match ← t.entry p with
  | .directory => throw .isDirectory
  | .file c => return c

/-- The contents of a file that is text. -/
def readText (t : FileTree) (p : Path) : Except FileError String := do
  match String.fromUTF8? (← t.readBytes p) with
  | some s => return s
  | none => throw .notText

/-! ## Writing -/

/-- Make a new entry at a path. -/
def create (t : FileTree) (p : Path) (e : Entry) : Except FileError FileTree := do
  let l ← t.locate p
  match t.find? l with
  | some _ => throw .alreadyExists
  | none => return t.put l e

/-- Put entries below what a path leads to, one after another. -/
def putBelow (t : FileTree) (p : Path) (es : List (Location × Entry)) : FileTree :=
  match t.locate p with
  | .ok l => es.foldl (fun t e => t.put (l ++ e.1) e.2) t
  | .error _ => t

/-- Remove what a path leads to, with all below it. -/
def remove (t : FileTree) (p : Path) : FileTree :=
  match t.locate p with
  | .ok l => t.erase l
  | .error _ => t

/-- Make the directories that names lead to from a location, where they are missing. -/
def createDirectories (t : FileTree) (base : Location) :
    List String → Except FileError FileTree
  | [] => return t
  | n :: ns => do
    let l ← t.enter base n
    match t.find? l with
    | some .directory => t.createDirectories l ns
    | some (.file _) => throw .notDirectory
    | none => (t.put l .directory).createDirectories l ns

/-- Move the entry at a location to a path, over a file that may stand there. A target that
no path can be is an argument at fault. -/
def moveTo (t : FileTree) (source : Location) (target : Path) : Except FileError FileTree := do
  if target.hasNull then throw .badArgument
  let new ← t.locate target
  if target.endsInSlash then throw .notDirectory
  match t.find? source, t.find? new with
  | _, some .directory => throw .isDirectory
  | none, _ => throw .notFound
  | some e, _ => return (t.erase source).put new e

/-- A name that starts with `stem`, goes on with at least six zeros and is not taken. -/
def freshName (taken : List String) (stem : String) : String :=
  let name (n : Nat) : String := stem ++ String.ofList (List.replicate (6 + n) '0')
  match (List.range (taken.length + 1)).find? fun n => name n ∉ taken with
  | some n => name n
  | none => stem

/-- A fresh path in a directory. It is absolute. -/
def freshPath (t : FileTree) (dir : Path) (stem : String) : Path :=
  t.absolute dir / freshName ((t.list dir).toOption.getD []) stem

/-- The name by which it is judged whether there is room for a draft. Drafts get names of this
length. -/
def draftName : String := freshName [] ".tmp"

/-- The place of a draft for a path: a fresh one in the directory of its last component, if
there is room for it. -/
def draftPlace (t : FileTree) (p : Path) : Except FileError Location := do
  let dir := (← t.locate (t.absolute p.directory / draftName)).dropLast
  return dir ++ [freshName (t.namesIn dir) ".tmp"]

end FileTree

end SodiumDecl
