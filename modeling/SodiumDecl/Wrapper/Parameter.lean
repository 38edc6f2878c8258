import SodiumDecl.Json.Decode

/-!
# Parameters

An input or output of a symbol, as the wrapper describes it: its name, its type token, the
size expression of a buffer, which is only informative, and whether it may be left out.
-/

namespace SodiumDecl.Wrapper

open Json

/-- A parameter of a symbol. -/
structure Parameter where
  name : String
  type : String
  size : Option Value := none
  optional : Bool := false

namespace Parameter

/-- A member of a parameter's description. -/
inductive Member
  | name (s : String)
  | type (s : String)
  | size (v : Option Value)
  | optional (b : Bool)

/-- How deep a size may be nested: it stands inside a symbol, a list of parameters and a
parameter. -/
def sizeLimit : Nat := nestingLimit - 3

/-- The parameter that the members describe. -/
def ofMembers (ms : List Member) : Except String Parameter := do
  let name ← required "name" (fun | .name s => some s | _ => none) ms
  let type ← required "type" (fun | .type s => some s | _ => none) ms
  return {
    name, type
    size := Json.optional none (fun | .size v => some v | _ => none) ms
    optional := Json.optional false (fun | .optional b => some b | _ => none) ms }

/-- How a parameter is read. -/
def schema : Schema Member Parameter where
  title := "ParameterDescriptor"
  fields := [
    ("name", fun t => (readString t).map .name),
    ("type", fun t => (readString t).map .type),
    ("size", fun t => (readOptional (readValue sizeLimit) t).map .size),
    ("optional", fun t => (readBool t).map .optional)]
  build := ofMembers

/-- The description of a parameter. -/
def value (p : Parameter) : Value :=
  .ofMembers <|
    [("name", .string p.name), ("type", .string p.type)]
      ++ (p.size.map fun v => ("size", v)).toList
      ++ [("optional", .bool p.optional)]

end Parameter

end SodiumDecl.Wrapper
