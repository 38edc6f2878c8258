import SodiumDecl.Archive.Directory
import SodiumDecl.Run.World

/-!
# Extracting an archive

`extract` unpacks the archive at a path below a directory. The name of a member is
simplified before it is used: `.` goes away and `..` takes the name before it with it, and
a name that is absolute or leaves the directory makes the archive unusable. Missing
directories are made one by one. Each member is read from the archive when its turn comes,
and what comes out of it is written even if it turns out to be damaged.
-/

namespace SodiumDecl

/-- The location after one more name, if it stays inside. -/
def memberStep (l : Location) (n : String) : Option Location :=
  if n = "." then some l
  else if n = ".." then (if l.isEmpty then none else some l.dropLast)
  else some (l ++ [n])

/-- The names that lead to a member from the directory of destination, if they stay
inside it. -/
def memberLocation? (name : String) : Option Location :=
  let path := Path.mk name
  if path.isAbsolute || path.hasNull then none
  else path.names.foldlM memberStep []

namespace Archive

/-- Go on with a part of an archive, or fail with the archive at fault. -/
def part {α : Type} (archive : Path) : Option α → Run α
  | some a => return a
  | none => throw (.archive archive)

/-- The bytes of an archive as it is now. -/
def bytes (archive : Path) : Run (List UInt8) := do
  let contents ← part archive ((← Run.files).readBytes archive).toOption
  return contents.toList

/-- Follow names from a path and make the directories that are missing, up to the one
before the last name. -/
def reach (archive : Path) (p : Path) : Location → Run Path
  | [] => return p
  | n :: ns => do
    let files ← Run.files
    let l ← part archive (files.locate (p / n)).toOption
    if !ns.isEmpty && (files.find? l).isNone then Run.setFiles (files.put l .directory)
    reach archive (p / n) ns

/-- Make a directory at a path, if there is none. -/
def makeDirectory (archive : Path) (p : Path) : Run Unit := do
  let files ← Run.files
  let l ← part archive (files.locate p).toOption
  match files.find? l with
  | some .directory => return ()
  | some (.file _) => throw (.archive archive)
  | none => Run.setFiles (files.put l .directory)

/-- Make an empty file at a path, in the place of a file that stands there, and give its
location. -/
def clearFile (archive : Path) (p : Path) : Run Location := do
  let files ← Run.files
  let l ← part archive (files.locate p).toOption
  match files.find? l with
  | some .directory => throw (.archive archive)
  | _ =>
    Run.setFiles (files.put l (.file .empty))
    return l

/-- Extract one member below the directory at a path. -/
def extractMember (archive base : Path) (e : Zip.PackedMember) : Run Unit := do
  part archive (if e.isReadable then some () else none)
  let names ← part archive (memberLocation? e.name)
  let path ← reach archive base names
  if e.isDirectory then makeDirectory archive path
  else
    let l ← clearFile archive path
    let contents ← part archive (e.contents? (← bytes archive))
    Run.setFiles ((← Run.files).put l (.file ⟨contents.toArray⟩))
    part archive (if e.isIntact contents then some () else none)

/-- Make the directory of destination, if it is missing, and give its absolute path. -/
def destinationPath (archive destination : Path) : Run Path := do
  let files ← Run.files
  let base := if destination.isAbsolute then [] else files.home
  let files ← part archive (files.createDirectories base destination.names).toOption
  Run.setFiles files
  return .ofComponents true (← part archive (files.locate destination).toOption)

/-- Extract an archive below the directory at a path. -/
def extract (archive destination : Path) : Run Unit := do
  let members ← part archive (Zip.members? (← bytes archive))
  let base ← destinationPath archive destination
  members.forM (extractMember archive base)
  Run.log (.extracted members.length destination)

end Archive

end SodiumDecl
