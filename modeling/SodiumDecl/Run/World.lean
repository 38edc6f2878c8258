import SodiumDecl.Download.Transfer
import SodiumDecl.Error
import SodiumDecl.Run.Event

/-!
# Runs

A run reads and changes a `World`: the files, and the records of what it told, requested
and reported. It may fail at any step, and what it did before stays done. The device under the
files may fail to take what is written.
-/

namespace SodiumDecl

/-- A request to a fetcher: the address, and the file that the archive is to become. -/
structure Request where
  url : String
  destination : Path
  deriving DecidableEq, Repr

/-- How a write fails: a number of bytes is taken before, and there is a reason. -/
structure DeviceFault where
  taken : Nat
  reason : String
  deriving DecidableEq, Repr

/-- How the writing of contents for a path fails, if it does. -/
abbrev Device := Path → ByteArray → Option DeviceFault

/-- The files, the records of a run in the order in which they were made, and the device. -/
structure World where
  files : FileTree
  events : List Event := []
  requests : List Request := []
  progress : List Progress := []
  device : Device := fun _ _ => none

/-- A computation on the world that may fail. -/
abbrev Run (α : Type) := ExceptT Error (StateM World) α

namespace Run

/-- Tell an event. -/
def log (e : Event) : Run Unit := modify fun w => { w with events := w.events ++ [e] }

/-- The files as they are. -/
def files : Run FileTree := return (← get).files

/-- Change the files. -/
def setFiles (t : FileTree) : Run Unit := modify fun w => { w with files := t }

/-- Go on with a result, or fail with its error. -/
def ofExcept {α : Type} : Except Error α → Run α
  | .ok a => return a
  | .error e => throw e

/-- Run `cleanup` after `body` if it fails, and fail with its error. -/
def onFailure {α : Type} (cleanup : Run Unit) (body : Run α) : Run α :=
  tryCatch body fun e => do
    cleanup
    throw e

/-- Run `cleanup` after `body`, whether it fails or not. -/
def andThen {α : Type} (cleanup : Run Unit) (body : Run α) : Run α := do
  let a ← onFailure cleanup body
  cleanup
  return a

end Run

end SodiumDecl
