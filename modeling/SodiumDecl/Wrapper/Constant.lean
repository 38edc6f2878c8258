import SodiumDecl.Json.Decode

/-!
# Constants

An exported constant, as the wrapper describes it: a name and a type token.
-/

namespace SodiumDecl.Wrapper

open Json

/-- An exported constant. -/
structure Constant where
  name : String
  type : String
  deriving DecidableEq, Repr

namespace Constant

/-- A member of a constant's description. -/
inductive Member
  | name (s : String)
  | type (s : String)

/-- The constant that the members describe. -/
def ofMembers (ms : List Member) : Except String Constant := do
  let name ← required "name" (fun | .name s => some s | _ => none) ms
  let type ← required "type" (fun | .type s => some s | _ => none) ms
  return { name, type }

/-- How a constant is read. -/
def schema : Schema Member Constant where
  title := "ConstantDescriptor"
  fields := [
    ("name", fun t => (readString t).map .name),
    ("type", fun t => (readString t).map .type)]
  build := ofMembers

/-- The constants that a text lists. -/
def parseList (text : String) : Except Fault (List Constant) :=
  decode (readArray (schema.read .text)) text

/-- The constant that a value describes. -/
def ofValue (v : Value) : Except Fault Constant := schema.read .value v.tree

/-- The description of a constant. -/
def value (c : Constant) : Value := .ofMembers [("name", .string c.name), ("type", .string c.type)]

end Constant

end SodiumDecl.Wrapper
