import SodiumDecl.Catalog.Basic
import SodiumDecl.Text.Search

/-!
# From descriptions to types

Type tokens are looked up in a closed table, and a token outside it is a type expression
of its own. Return expressions go through an ordered list of rules, first those of the
catalog's shapes and then four that look for a mark in the expression: the first rule that
matches decides, and an expression that none matches is again a type of its own.

`overloads` gives the signatures of a symbol: two when its result depends on the output
format and the caller may choose it, otherwise one.
-/

namespace SodiumDecl

/-! ## Tokens -/

/-- The type of a token, as constants have it. -/
def tokenType (token : String) : TypeExpr :=
  if token = "uint" then .number
  else if token = "buf" || token = "randombytes_implementation" then .binary
  else if token = "unsized_buf" || token = "unsized_buf_optional" then
    .union [.string, .binary, .undefined]
  else .named token

/-- The type of a token, as parameters have it: one that mentions `optional` allows null. -/
def paramType (token : String) : TypeExpr :=
  if Text.contains "optional" token then (tokenType token).orNull else tokenType token

/-! ## Return expressions -/

/-- A test of a return expression. -/
inductive Pattern
  | startsWith (mark : String)
  | equals (mark : String)
  | contains (mark : String)
  deriving DecidableEq, Repr

/-- An expression passes a test. -/
def Pattern.accepts : Pattern → String → Bool
  | .startsWith m, e => m.toList.isPrefixOf e.toList
  | .equals m, e => m = e
  | .contains m, e => Text.contains m e

/-- What is returned by the expressions that pass a test. -/
structure ReturnRule where
  pattern : Pattern
  returns : ReturnType
  deriving Repr, BEq

/-- The rule of a shape. -/
def Shape.rule (s : Shape) : ReturnRule := ⟨.startsWith s.returnPrefix, .dual s.dual⟩

/-- The rules that hold for every catalog. -/
def commonRules : List ReturnRule := [
  ⟨.equals "random_value", .plain .number⟩,
  ⟨.contains "=== 0", .plain .boolean⟩,
  ⟨.contains "stringify", .plain .string⟩,
  ⟨.contains "_format_output", .dual ⟨.binary, .string⟩⟩]

namespace Catalog

/-- The rules of a catalog, in the order in which they are tried. -/
def returnRules (c : Catalog) : List ReturnRule := c.shapes.map Shape.rule ++ commonRules

/-- What an expression returns. -/
def returnType (c : Catalog) (expr : String) : ReturnType :=
  match c.returnRules.find? (·.pattern.accepts expr) with
  | some rule => rule.returns
  | none => .plain (.named expr)

/-- The declared parameter of an input. -/
def param (p : Wrapper.Parameter) : Param := ⟨p.name, paramType p.type, false⟩

/-- The signatures of a symbol. -/
def overloads (c : Catalog) (s : Wrapper.Symbol) : List Overload :=
  let params := s.inputs.map param
  match c.returnType (s.returns.getD "void") with
  | .plain type => [⟨params, none, type⟩]
  | .dual types =>
    if s.noOutputFormat then [⟨params, none, types.binary⟩]
    else [OutputFormat.binary, .text].map fun f => ⟨params, some f, types.get f⟩

end Catalog

end SodiumDecl
