/-!
# Release versions

A version is a dot-separated list of runs of decimal digits. Two versions are compared
component by component, left to right, and each pair of components is compared as text,
so `10` sorts before `9`. The shorter list is padded with the component `0`.

`Version.isWellFormed` decides the grammar, `Version.compare?` is the order, undefined
when a side is malformed, and `Version.check` is the gate against a minimum.
-/

namespace SodiumDecl

/-- Why a version is refused. -/
inductive VersionError
  | malformed (version : String)
  | belowMinimum (version minimum : String)
  deriving DecidableEq, Repr

/-- The text of a refusal. -/
def VersionError.message : VersionError → String
  | .malformed v =>
    s!"\"{v}\" is not a valid version (expected dot-separated non-negative integers)"
  | .belowMinimum v m => s!"\"{v}\" is below the minimum supported version {m}"

namespace Version

/-- The oldest release whose descriptors are understood. -/
def oldestSupported : String := "0.7.3"

/-- The texts between the dots. -/
def components (v : String) : List (List Char) := v.toList.splitOn '.'

/-- A component is a non-empty run of the digits `0` to `9`. -/
def isComponent (p : List Char) : Bool := !p.isEmpty && p.all Char.isDigit

/-- Every text between the dots is a component. -/
def isWellFormed (v : String) : Bool := (components v).all isComponent

/-- The order of two component lists, the shorter one padded with `0`. -/
def comparePadded (as bs : List (List Char)) : Ordering :=
  let width := max as.length bs.length
  compare (as.rightpad width ['0']) (bs.rightpad width ['0'])

/-- The order of two versions. Malformed text has none. -/
def compare? (a b : String) : Option Ordering :=
  if isWellFormed a && isWellFormed b then some (comparePadded (components a) (components b))
  else none

/-- Accept `version` when it is well-formed and not below `minimum`. When there is no
order between them, the refusal quotes `version` if it is at fault, else `minimum`. -/
def check (version minimum : String) : Except VersionError Unit :=
  match compare? version minimum with
  | none => .error (.malformed (if isWellFormed version then minimum else version))
  | some .lt => .error (.belowMinimum version minimum)
  | some _ => .ok ()

end Version

end SodiumDecl
