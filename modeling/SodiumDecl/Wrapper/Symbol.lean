import SodiumDecl.Wrapper.Parameter
import SodiumDecl.Wrapper.ReturnCheck

/-!
# Symbols

An exported function, as the wrapper describes it. Its return expression is absent when it
returns nothing, and `noOutputFormat` says that callers cannot choose the encoding of the
result. Only the name has to be given.
-/

namespace SodiumDecl.Wrapper

open Json

/-- An exported function. -/
structure Symbol where
  name : String
  inputs : List Parameter := []
  outputs : List Parameter := []
  returns : Option String := none
  noOutputFormat : Bool := false
  target : Option String := none
  dependencies : List String := []
  returnChecks : List ReturnCheck := []

namespace Symbol

/-- A symbol written by hand, without a choice of the output format. -/
def helper (name : String) (inputs : List (String × String)) (returns : Option String) :
    Symbol where
  name
  inputs := inputs.map fun (name, type) => { name, type }
  returns
  noOutputFormat := true

/-- A member of a symbol's description. -/
inductive Member
  | name (s : String)
  | inputs (ps : List Parameter)
  | outputs (ps : List Parameter)
  | returns (s : Option String)
  | noOutputFormat (b : Bool)
  | target (s : Option String)
  | dependencies (ss : List String)
  | returnChecks (cs : List ReturnCheck)

/-- The symbol that the members describe. -/
def ofMembers (ms : List Member) : Except String Symbol := do
  let name ← required "name" (fun | .name s => some s | _ => none) ms
  return {
    name
    inputs := optional [] (fun | .inputs ps => some ps | _ => none) ms
    outputs := optional [] (fun | .outputs ps => some ps | _ => none) ms
    returns := optional none (fun | .returns s => some s | _ => none) ms
    noOutputFormat := optional false (fun | .noOutputFormat b => some b | _ => none) ms
    target := optional none (fun | .target s => some s | _ => none) ms
    dependencies := optional [] (fun | .dependencies ss => some ss | _ => none) ms
    returnChecks := optional [] (fun | .returnChecks cs => some cs | _ => none) ms }

/-- How a symbol is read. -/
def schema (origin : Origin) : Schema Member Symbol where
  title := "SymbolDescriptor"
  fields := [
    ("name", fun t => (readString t).map .name),
    ("inputs", fun t => (readArray (Parameter.schema.read origin) t).map .inputs),
    ("outputs", fun t => (readArray (Parameter.schema.read origin) t).map .outputs),
    ("return", fun t => (readOptional readString t).map .returns),
    ("noOutputFormat", fun t => (readBool t).map .noOutputFormat),
    ("target", fun t => (readOptional readString t).map .target),
    ("dependencies", fun t => (readArray readString t).map .dependencies),
    ("assert_retval", fun t => (readArray (ReturnCheck.schema.read origin) t).map .returnChecks)]
  build := ofMembers

/-- The symbol that a text describes. -/
def parse (text : String) : Except Fault Symbol := decode ((schema .text).read .text) text

/-- The symbol that a value describes. -/
def ofValue (v : Value) : Except Fault Symbol := (schema .value).read .value v.tree

/-- The description of a symbol. -/
def value (s : Symbol) : Value :=
  .ofMembers <|
    [("name", .string s.name),
      ("inputs", .array (s.inputs.map Parameter.value)),
      ("outputs", .array (s.outputs.map Parameter.value))]
      ++ (s.returns.map fun r => ("return", Value.string r)).toList
      ++ [("noOutputFormat", .bool s.noOutputFormat)]
      ++ (s.target.map fun t => ("target", Value.string t)).toList
      ++ [("dependencies", .array (s.dependencies.map .string)),
        ("assert_retval", .array (s.returnChecks.map ReturnCheck.value))]

end Symbol

end SodiumDecl.Wrapper
