/-!
# Profiles

The two builds of the wrappers. The standard build leaves out the symbols that only the
extended one has.
-/

namespace SodiumDecl

/-- Which build is declared. -/
inductive Profile
  | standard
  | extended
  deriving DecidableEq, Repr

namespace Profile

/-- The profile that a request for the extended build selects. -/
def ofExtended (extended : Bool) : Profile := if extended then .extended else .standard

/-- The build has every symbol. -/
def isExtended (p : Profile) : Bool := p = .extended

/-- The name of a profile in events. -/
def label : Profile → String
  | .standard => "Standard"
  | .extended => "Extended"

/-- The module that the declarations describe. -/
def moduleName : Profile → String
  | .standard => "libsodium-wrappers"
  | .extended => "libsodium-wrappers-sumo"

/-- The name of the file that is written into an output directory. -/
def fileName (p : Profile) : String := p.moduleName ++ ".d.ts"

end Profile

end SodiumDecl
