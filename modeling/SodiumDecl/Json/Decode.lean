import SodiumDecl.Json.Value
import SodiumDecl.Text.Quoted

/-!
# Typed reading

Readers that take a tree to a value of a known type, or to the first fault in the order of
the text. A `Schema` reads a record with named members: from an object in any order, where
unknown members only have to be JSON, or from an array that holds the members in their
declared order.

A text with a fault of syntax is `malformed`, and so is a string or a number that holds no
value. A value of the wrong kind is reported where it stands, a repeated member at its
second key, and a missing member at the end of its object.
-/

namespace SodiumDecl.Json

/-- Why a value cannot be read. -/
inductive Fault
  | malformed
  | missingField (key : String)
  | duplicateField (key : String)
  | invalidType (unexpected expected : String)
  | invalidLength (length : Nat) (expected : String)
  deriving DecidableEq, Repr

/-- The text of a fault. Faults of syntax are not told apart. -/
def Fault.message : Fault → String
  | .malformed => "<json>"
  | .missingField k => s!"missing field `{k}`"
  | .duplicateField k => s!"duplicate field `{k}`"
  | .invalidType u e => s!"invalid type: {u}, expected {e}"
  | .invalidLength n e => s!"invalid length {n}, expected {e}"

/-- A reader of trees. -/
abbrev Reader (α : Type) := Tree → Except Fault α

/-- Where a tree comes from: a text, or a value that was read before. In a text, elements
after the last member of a record are a fault of syntax, in a value one of length. -/
inductive Origin
  | text
  | value
  deriving DecidableEq

/-! ## Single values -/

/-- What a tree is, in a report on its kind. -/
def Tree.description? : Tree → Option String
  | .null => some "null"
  | .bool b => some s!"boolean `{b}`"
  | .number n => n.map fun
    | .integer i => s!"integer `{i}`"
    | .float bits => s!"floating point `{String.ofList (floatText bits)}`"
  | .string s => s.map fun s => s!"string {Text.quoted s}"
  | .array _ _ => some "sequence"
  | .object _ _ => some "map"
  | .broken => none

/-- The fault of a tree that is not of the expected kind. -/
def Tree.mismatch (t : Tree) (expected : String) : Fault :=
  match t.description? with
  | some d => .invalidType d expected
  | none => .malformed

/-- Read a string. -/
def readString : Reader String
  | .string (some s) => .ok s
  | t => .error (t.mismatch "a string")

/-- Read a boolean. -/
def readBool : Reader Bool
  | .bool b => .ok b
  | t => .error (t.mismatch "a boolean")

/-- Read a value, or null as none. -/
def readOptional {α : Type} (read : Reader α) : Reader (Option α)
  | .null => .ok none
  | t => (read t).map some

/-- Read any value with at most `limit` arrays and objects around each other. -/
def readValue (limit : Nat) : Reader Value := fun t =>
  match t.value? limit with
  | some v => .ok v
  | none => .error .malformed

/-- Read the elements of an array. -/
def readArray {α : Type} (read : Reader α) : Reader (List α)
  | .array ts closed => do
    let as ← ts.mapM read
    if closed then return as else throw .malformed
  | t => throw (t.mismatch "a sequence")

/-! ## Records -/

/-- How a record is read. Each member, in its declared order, has a reader that gives an
item, and the items make the record or lack the member of the given name. -/
structure Schema (ι α : Type) where
  title : String
  fields : List (String × Reader ι)
  build : List ι → Except String α

namespace Schema

variable {ι α : Type}

/-- The items of the members of an object, in the order of the text, where `seen` are the
known keys that were met before. -/
def readMembers (s : Schema ι α) :
    List String → List (Option String × Tree) → Except Fault (List ι)
  | _, [] => return []
  | _, (none, _) :: _ => throw .malformed
  | seen, (some k, t) :: ms =>
    match s.fields.lookup k with
    | none => if t.isIntact then s.readMembers seen ms else throw .malformed
    | some read =>
      if k ∈ seen then throw (.duplicateField k)
      else do
        let item ← read t
        return item :: (← s.readMembers (k :: seen) ms)

/-- The items of the elements of an array, one for each member in turn. -/
def readElems : List (String × Reader ι) → List Tree → Except Fault (List ι)
  | f :: fs, t :: ts => do
    let item ← f.2 t
    return item :: (← readElems fs ts)
  | _, _ => return []

/-- What the report on an array of the wrong length expects. -/
def lengthText (s : Schema ι α) : String := s!"struct {s.title} with {s.fields.length} elements"

/-- Read a record. -/
def read (s : Schema ι α) (origin : Origin) : Reader α
  | .object ms closed => do
    let items ← s.readMembers [] ms
    if closed then (s.build items).mapError .missingField else throw .malformed
  | .array ts closed => do
    let items ← readElems s.fields ts
    if !closed then throw .malformed
    else if s.fields.length < ts.length then
      match origin with
      | .text => throw .malformed
      | .value => throw (.invalidLength ts.length "fewer elements in array")
    else (s.build items).mapError fun _ => .invalidLength ts.length s.lengthText
  | t => throw (t.mismatch s!"struct {s.title}")

end Schema

/-- The first item that a record needs, or the name of the member that would hold it. -/
def required {ι β : Type} (key : String) (pick : ι → Option β) (items : List ι) :
    Except String β :=
  match items.findSome? pick with
  | some b => .ok b
  | none => .error key

/-- The first item that a record may hold, or a default. -/
def optional {ι β : Type} (default : β) (pick : ι → Option β) (items : List ι) : β :=
  (items.findSome? pick).getD default

/-! ## Whole texts -/

/-- Read a whole text. -/
def decode {α : Type} (read : Reader α) (text : String) : Except Fault α := do
  let r := Json.read text
  let a ← read r.root
  if r.trailing then throw .malformed else return a

end SodiumDecl.Json
