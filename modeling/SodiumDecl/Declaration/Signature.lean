import SodiumDecl.Declaration.TypeExpr

/-!
# Signatures

One declared signature of a function. A function whose result is encoded as its caller
chooses has two, one for each output format, and each ends in a parameter that selects the
format. Binary output is what callers get by default, so its selector may be left out.
-/

namespace SodiumDecl

/-- How a result is encoded. -/
inductive OutputFormat
  | binary
  | text
  deriving DecidableEq, Repr

/-- A declared parameter. -/
structure Param where
  name : String
  type : TypeExpr
  optional : Bool := false
  deriving Repr, BEq

/-- The text of a parameter. -/
def Param.text (p : Param) : String :=
  p.name ++ (if p.optional then "?" else "") ++ ": " ++ p.type.text

namespace OutputFormat

/-- The alias that the selector of a format has as its type. -/
def aliasName : OutputFormat → String
  | .binary => "Uint8ArrayOutputFormat"
  | .text => "StringOutputFormat"

/-- The parameter that selects a format. -/
def selector (f : OutputFormat) : Param where
  name := "outputFormat"
  type := (TypeExpr.named f.aliasName).orNull
  optional := f = .binary

end OutputFormat

/-- A signature. Its format is set when it is one of two. -/
structure Overload where
  params : List Param
  format : Option OutputFormat
  returns : TypeExpr
  deriving Repr, BEq

namespace Overload

/-- All parameters, the selector last. -/
def allParams (o : Overload) : List Param := o.params ++ (o.format.map (·.selector)).toList

/-- The text of the parameter list. -/
def paramsText (o : Overload) : String := ", ".intercalate (o.allParams.map Param.text)

end Overload

/-- A type for each output format. -/
structure DualType where
  binary : TypeExpr
  text : TypeExpr
  deriving Repr, BEq

/-- The type for one format. -/
def DualType.get (d : DualType) : OutputFormat → TypeExpr
  | .binary => d.binary
  | .text => d.text

/-- What a function returns: one type, or one that depends on the output format. -/
inductive ReturnType
  | plain (type : TypeExpr)
  | dual (types : DualType)
  deriving Repr, BEq

end SodiumDecl
