import SodiumDecl.CommandLine.Command

/-!
# The program

`main` looks at the files that an invocation names, lets `CommandLine.execute` decide what
happens to them, and then writes what is new and prints what is to be printed.
-/

namespace SodiumDecl.Main

open CommandLine

/-- The text of a location. -/
def locationText (l : Location) : String := "/" ++ "/".intercalate l

/-- The names in the directory at a location. -/
def namesAt (l : Location) : IO (Array String) := do
  let entries ← ((← IO.currentDir) / locationText l).readDir
  return entries.map (·.fileName)

/-- Look at a location: a directory can be listed and a file can be read. -/
def look (t : FileTree) (l : Location) : IO FileTree := do
  try
    let _ ← namesAt l
    return t.put l .directory
  catch _ =>
    try return t.put l (.file (← IO.FS.readBinFile (locationText l)))
    catch _ => return t

/-- Look at every directory on the way to a path, and at what the path leads to. -/
def follow (t : FileTree) (p : Path) : IO FileTree := do
  let mut t := t
  let mut l : Location := if p.isAbsolute then [] else t.home
  for n in p.names do
    match t.enter l n with
    | .ok next =>
      l := next
      t ← look t l
    | .error _ => pure ()
  return t

/-- Look at what is inside the directory that a path leads to. -/
def inside (t : FileTree) (p : Path) : IO FileTree := do
  let mut t ← follow t p
  match t.locate p with
  | .ok l =>
    try
      for name in ← namesAt l do
        t ← look t (l ++ [name])
    catch _ => pure ()
    return t
  | .error _ => return t

/-- The files that an invocation may read or replace. -/
def survey (context : Context) (i : Invocation) (t : FileTree) : IO FileTree := do
  match i with
  | .generate output s =>
    let o := options output s
    let mut t ← inside t o.output
    t ← inside t context.temporary
    if let some base := o.base then
      t ← inside t (symbolsDirectory base)
      t ← follow t (constantsFile base)
      t ← follow t (packageFile base)
    match s.values.lookup .config, context.environment.configFile? with
    | some file, _ => follow t ⟨file⟩
    | none, some file => follow t file
    | none, none => return t
  | _ => return t

/-- An entry is not what a tree has at its location. -/
def isNews (before : FileTree) (l : Location) : Entry → Bool
  | .directory => (before.find? l).isNone
  | .file contents =>
    match before.find? l with
    | some (.file old) => old.toList ≠ contents.toList
    | _ => true

/-- Write the files that a run made or changed, each one whole. -/
def store (before after : FileTree) : IO Unit := do
  for (l, e) in after.entries do
    if isNews before l e then
      match e with
      | .file contents =>
        let draft := locationText l ++ ".tmp"
        try
          IO.FS.writeBinFile draft contents
          IO.FS.rename draft (locationText l)
        catch e =>
          try IO.FS.removeFile draft catch _ => pure ()
          throw e
      | .directory => IO.FS.createDirAll (locationText l)

/-- The names of an absolute path, as a location. -/
def locationOf (text : String) : Location := (Path.mk text).names

end SodiumDecl.Main

open SodiumDecl SodiumDecl.CommandLine SodiumDecl.Main in
/-- Run the command. Downloads need a transport, which the program does not have. -/
def main (args : List String) : IO UInt32 := do
  let home := locationOf (← IO.currentDir).toString
  let environment : Environment := {
    configHome := ← IO.getEnv "XDG_CONFIG_HOME"
    home := ← IO.getEnv "HOME" }
  let temporary := Path.ofComponents true home / ((← IO.getEnv "TMPDIR").getD "/tmp")
  let fetcher : Fetcher := fun _ => { progress := [], outcome := .refused "no transport" }
  let context : Context := { environment, fetcher, temporary }
  let invocation := Invocation.ofArguments args
  let empty := FileTree.bare home
  let files ← survey context invocation (← follow empty (Path.ofComponents true home))
  let (output, world) := execute context invocation { files }
  store files world.files
  (← IO.getStdout).putStr output.stdout
  (← IO.getStderr).putStr output.stderr
  return output.code.toUInt32
