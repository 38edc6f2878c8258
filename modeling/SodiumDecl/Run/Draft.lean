import SodiumDecl.Run.World

/-!
# Writing a file as a whole

A file is written as a draft beside its place, and the draft is moved there once all of it is
written. When a step fails, the draft is removed.
-/

namespace SodiumDecl

/-- Make an empty draft for a path. -/
def makeDraft (path : Path) : Run Location := do
  let files ← Run.files
  match files.draftPlace path with
  | .error e => throw (.output path e)
  | .ok draft =>
    Run.setFiles (files.put draft (.file .empty))
    return draft

/-- Write contents to the draft for a path. If the device fails, the draft holds what was taken
until then. -/
def fillDraft (path : Path) (draft : Location) (contents : ByteArray) : Run Unit := do
  let world ← get
  match world.device path contents with
  | some fault =>
    Run.setFiles (world.files.put draft (.file (contents.extract 0 fault.taken)))
    throw (.output path (.device fault.reason))
  | none => Run.setFiles (world.files.put draft (.file contents))

/-- Move the draft for a path to its place. -/
def persistDraft (path : Path) (draft : Location) : Run Unit := do
  match (← Run.files).moveTo draft path with
  | .error e => throw (.output path e)
  | .ok t => Run.setFiles t

/-- Remove a draft. -/
def removeDraft (draft : Location) : Run Unit := do
  Run.setFiles ((← Run.files).erase draft)

/-- Write a file as a whole. -/
def writeAtomically (path : Path) (contents : ByteArray) : Run Unit := do
  let draft ← makeDraft path
  Run.onFailure (removeDraft draft) do
    fillDraft path draft contents
    persistDraft path draft

end SodiumDecl
