/-!
# Type expressions

The types that declarations mention, and their text. A union is written as the texts of
its members between bars, without brackets, so nested unions read as one flat union.
-/

namespace SodiumDecl

/-- A type in a declaration. `named` is a type expression taken as it stands. -/
inductive TypeExpr
  | number
  | boolean
  | string
  | binary
  | null
  | undefined
  | literal (value : String)
  | named (text : String)
  | union (members : List TypeExpr)
  deriving Repr, BEq

namespace TypeExpr

mutual
/-- The text of a type. -/
def text : TypeExpr → String
  | .number => "number"
  | .boolean => "boolean"
  | .string => "string"
  | .binary => "Uint8Array"
  | .null => "null"
  | .undefined => "undefined"
  | .literal s => "'" ++ s ++ "'"
  | .named s => s
  | .union ts => " | ".intercalate (texts ts)

/-- The texts of several types. -/
def texts : List TypeExpr → List String
  | [] => []
  | t :: ts => t.text :: texts ts
end

/-- Allow null beside the values of a type. A union takes it as one more member. -/
def orNull : TypeExpr → TypeExpr
  | .union ts => .union (ts ++ [.null])
  | t => .union [t, .null]

end TypeExpr

end SodiumDecl
