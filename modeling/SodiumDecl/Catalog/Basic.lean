import SodiumDecl.Declaration.Document
import SodiumDecl.Declaration.Profile
import SodiumDecl.Text.Lowercase
import SodiumDecl.Wrapper.Constant
import SodiumDecl.Wrapper.Symbol

/-!
# Catalogs

What is declared besides the symbols and constants that the wrapper describes: aliases,
enumerations, the records of composite results, opaque handles, symbols written by hand,
and the names that only the extended build has. A name is on that list in any spelling
that lower-cases to the same text.
-/

namespace SodiumDecl

/-- The type of a field of a composite result: a buffer is encoded as the caller chooses,
a fixed type is the same for every format. -/
inductive Leaf
  | buffer
  | fixed (type : TypeExpr)
  deriving Repr, BEq

/-- A field of a composite result. -/
structure ShapeField where
  name : String
  leaf : Leaf
  deriving Repr, BEq

/-- A composite result. Return expressions that start with `returnPrefix` have it. -/
structure Shape where
  binaryName : String
  textName : String
  returnPrefix : String
  fields : List ShapeField
  deriving Repr, BEq

/-- The type of a leaf in one format, `buffer` being that of a buffer. -/
def Leaf.type (buffer : TypeExpr) : Leaf → TypeExpr
  | .buffer => buffer
  | .fixed t => t

/-- The type of a buffer in one format. -/
def OutputFormat.bufferType : OutputFormat → TypeExpr
  | .binary => .binary
  | .text => .string

namespace Shape

/-- The shape whose text record is named after the binary one. -/
def of (name returnPrefix : String) (fields : List (String × Leaf)) : Shape :=
  ⟨name, "String" ++ name, returnPrefix, fields.map fun f => ⟨f.1, f.2⟩⟩

/-- The name of the record for one format. -/
def recordName (s : Shape) : OutputFormat → String
  | .binary => s.binaryName
  | .text => s.textName

/-- The types of a shape. -/
def dual (s : Shape) : DualType := ⟨.named s.binaryName, .named s.textName⟩

/-- The record of a shape for one format. -/
def record (s : Shape) (f : OutputFormat) : Record :=
  ⟨s.recordName f, s.fields.map fun x => ⟨x.name, x.leaf.type f.bufferType⟩⟩

end Shape

/-- The hand-written part of the declarations. The names in `extendedOnly` are in lower
case. -/
structure Catalog where
  aliases : List TypeAlias
  enumerations : List Enumeration
  shapes : List Shape
  handles : List String
  auxiliarySymbols : List Wrapper.Symbol
  ready : Wrapper.Constant
  extendedOnly : List String

namespace Catalog

/-- Replace the list of names that only the extended build has. -/
def withExtendedOnly (c : Catalog) (names : List String) : Catalog :=
  { c with extendedOnly := names.map Text.lowercase }

/-- Only the extended build has the name, in whatever case it is written. -/
def isExtendedOnly (c : Catalog) (name : String) : Bool :=
  c.extendedOnly.contains (Text.lowercase name)

/-- A constant or function of this name is declared for the profile. -/
def includes (c : Catalog) (name : String) (p : Profile) : Bool :=
  p.isExtended || !c.isExtendedOnly name

/-- The record of an opaque handle. -/
def handleRecord (name : String) : Record := ⟨name, [⟨"name", .string⟩]⟩

/-- The records of the handles. -/
def handleRecords (c : Catalog) : List Record := c.handles.map handleRecord

/-- The records of the shapes, two for each, and of the handles. -/
def records (c : Catalog) : List Record :=
  (c.shapes.flatMap fun s => [s.record .binary, s.record .text]) ++ c.handleRecords

end Catalog

end SodiumDecl
