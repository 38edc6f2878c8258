import SodiumDecl.Json.Decode

/-!
# Return checks

A condition on the return value of a symbol, and the message to throw when it fails.
-/

namespace SodiumDecl.Wrapper

open Json

/-- A check of a return value. -/
structure ReturnCheck where
  condition : String
  orElseThrow : String
  deriving DecidableEq, Repr

namespace ReturnCheck

/-- A member of a check's description. -/
inductive Member
  | condition (s : String)
  | orElseThrow (s : String)

/-- The check that the members describe. -/
def ofMembers (ms : List Member) : Except String ReturnCheck := do
  let condition ← required "condition" (fun | .condition s => some s | _ => none) ms
  let orElseThrow ← required "or_else_throw" (fun | .orElseThrow s => some s | _ => none) ms
  return { condition, orElseThrow }

/-- How a check is read. -/
def schema : Schema Member ReturnCheck where
  title := "RetvalAssertion"
  fields := [
    ("condition", fun t => (readString t).map .condition),
    ("or_else_throw", fun t => (readString t).map .orElseThrow)]
  build := ofMembers

/-- The description of a check. -/
def value (c : ReturnCheck) : Value :=
  .ofMembers [("condition", .string c.condition), ("or_else_throw", .string c.orElseThrow)]

end ReturnCheck

end SodiumDecl.Wrapper
