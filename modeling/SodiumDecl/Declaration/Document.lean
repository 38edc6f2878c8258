import SodiumDecl.Declaration.Signature

/-!
# Documents

`Document` is a complete declaration module and `Document.render` its text. The text is
made of lines: a title, a head, and the aliases, enumerations, records, constants and
functions in this order, an empty line after the aliases, after each enumeration and each
record, and after the constants. A function takes a line for each of its signatures.
-/

namespace SodiumDecl

/-- A name for a type. -/
structure TypeAlias where
  name : String
  type : TypeExpr
  deriving Repr, BEq

/-- The alias of a union of string literals. -/
def TypeAlias.literals (name : String) (values : List String) : TypeAlias :=
  ⟨name, .union (values.map .literal)⟩

/-- An enumeration and its members. -/
structure Enumeration where
  name : String
  members : List String
  deriving Repr, BEq

/-- A field of a record. -/
structure Field where
  name : String
  type : TypeExpr
  deriving Repr, BEq

/-- A record and its fields. -/
structure Record where
  name : String
  fields : List Field
  deriving Repr, BEq

/-- A declared constant. -/
structure ConstantDecl where
  name : String
  type : TypeExpr
  deriving Repr, BEq

/-- A declared function and its signatures. -/
structure FunctionDecl where
  name : String
  overloads : List Overload
  deriving Repr, BEq

/-- A declaration module. -/
structure Document where
  module : String
  version : String
  aliases : List TypeAlias
  enumerations : List Enumeration
  records : List Record
  constants : List ConstantDecl
  functions : List FunctionDecl
  deriving Repr, BEq

/-! ## Lines -/

/-- The line of an alias. -/
def TypeAlias.line (a : TypeAlias) : String := "  type " ++ a.name ++ " = " ++ a.type.text ++ ";"

/-- The lines of an enumeration. -/
def Enumeration.lines (e : Enumeration) : List String :=
  ("  enum " ++ e.name ++ " \x7b") :: e.members.map (fun m => "    " ++ m ++ ",") ++ ["  \x7d", ""]

/-- The line of a field. -/
def Field.line (f : Field) : String := "    " ++ f.name ++ ": " ++ f.type.text ++ ";"

/-- The lines of a record. -/
def Record.lines (r : Record) : List String :=
  ("  interface " ++ r.name ++ " \x7b") :: r.fields.map Field.line ++ ["  \x7d", ""]

/-- The line of a constant. -/
def ConstantDecl.line (c : ConstantDecl) : String :=
  "  const " ++ c.name ++ ": " ++ c.type.text ++ ";"

/-- The line of a signature of the function `name`. -/
def Overload.line (name : String) (o : Overload) : String :=
  "  function " ++ name ++ "(" ++ o.paramsText ++ "): " ++ o.returns.text ++ ";"

/-- The lines of a function. -/
def FunctionDecl.lines (f : FunctionDecl) : List String := f.overloads.map (Overload.line f.name)

namespace Document

/-- The lines before the declarations. -/
def head (d : Document) : List String := [
  "// Type definitions for " ++ d.module ++ " " ++ d.version,
  "// Project: https://github.com/jedisct1/libsodium.js",
  "// Generated by sodium-typegen",
  "",
  "declare module '" ++ d.module ++ "' \x7b"]

/-- The lines of the declarations. -/
def body (d : Document) : List String :=
  d.aliases.map TypeAlias.line ++ [""]
    ++ d.enumerations.flatMap Enumeration.lines
    ++ d.records.flatMap Record.lines
    ++ d.constants.map ConstantDecl.line ++ [""]
    ++ d.functions.flatMap FunctionDecl.lines

/-- All lines. -/
def lines (d : Document) : List String := d.head ++ d.body ++ ["\x7d"]

/-- The text of a document, a line feed after each line. -/
def render (d : Document) : String := String.join (d.lines.map (· ++ "\n"))

end Document

end SodiumDecl
