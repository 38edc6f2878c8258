import SodiumDecl.Mapping

/-!
# Assembling a document

A corpus holds the symbols and constants of a release, sorted by name. `Catalog.assemble`
makes the declaration module of a profile from it: what the profile leaves out is dropped,
the order is kept, and aliases, enumerations and records come from the catalog alone.
-/

namespace SodiumDecl

/-- The symbols and constants of a release. -/
structure Corpus where
  functions : List Wrapper.Symbol
  constants : List Wrapper.Constant

namespace Catalog

/-- The declaration of a constant. -/
def constantDecl (k : Wrapper.Constant) : ConstantDecl := ⟨k.name, tokenType k.type⟩

/-- The declaration of a function. -/
def functionDecl (c : Catalog) (s : Wrapper.Symbol) : FunctionDecl := ⟨s.name, c.overloads s⟩

/-- The declaration module of a corpus. -/
def assemble (c : Catalog) (corpus : Corpus) (p : Profile) (version : String) : Document where
  module := p.moduleName
  version
  aliases := c.aliases
  enumerations := c.enumerations
  records := c.records
  constants := (corpus.constants.filter fun k => c.includes k.name p).map constantDecl
  functions := (corpus.functions.filter fun s => c.includes s.name p).map c.functionDecl

end Catalog

end SodiumDecl
