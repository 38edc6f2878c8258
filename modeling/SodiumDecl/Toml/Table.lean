/-!
# Tables

The tables of a TOML document while it is read. A table is opened by its own header once,
implied by the header of a table inside it, or made by a dotted key, and these decide what
may still be added to it. Values other than texts and tables are only marked: nothing can
be added to them.
-/

namespace SodiumDecl.Toml

/-- How a table came to be. -/
inductive Origin
  | opened
  | implied
  | dotted
  deriving DecidableEq, Repr

/-- The value of a key. Of an array of tables the last table is kept. -/
inductive Node
  | text (s : String)
  | other
  | table (origin : Origin) (members : List (String × Node))
  | tables (last : List (String × Node))

/-- The members of a table. -/
abbrev Members := List (String × Node)

/-- Replace the value of a key, or add it. -/
def assign (k : String) (n : Node) : Members → Members
  | [] => [(k, n)]
  | m :: ms => if m.1 = k then (k, n) :: ms else m :: assign k n ms

/-- Change the members of the table that the names of a header lead to. Missing tables are
implied. -/
def alongHeader (change : Members → Option Members) : List String → Members → Option Members
  | [], ms => change ms
  | k :: ks, ms =>
    match ms.lookup k with
    | none => do return assign k (.table .implied (← alongHeader change ks [])) ms
    | some (.table origin inner) => do
      return assign k (.table origin (← alongHeader change ks inner)) ms
    | some (.tables last) => do return assign k (.tables (← alongHeader change ks last)) ms
    | some _ => none

/-- Add a value under a dotted key. Tables on the way may not have been opened, and the
last one has to come from dotted keys alone. -/
def addDotted (k : String) (n : Node) : List String → Members → Option Members
  | [], ms => if (ms.lookup k).isSome then none else some (ms ++ [(k, n)])
  | t :: ts, ms =>
    match ms.lookup t with
    | none => do return assign t (.table .dotted (← addDotted k n ts [])) ms
    | some (.table origin inner) =>
      if origin = .opened || (ts.isEmpty && origin ≠ .dotted) then none
      else do return assign t (.table origin (← addDotted k n ts inner)) ms
    | some (.tables last) =>
      if ts.isEmpty then none else do return assign t (.tables (← addDotted k n ts last)) ms
    | some _ => none

/-- Open the table of a header in its parent. -/
def openTable (k : String) (ms : Members) : Option Members :=
  match ms.lookup k with
  | none => some (ms ++ [(k, .table .opened [])])
  | some (.table .implied inner) => some (assign k (.table .opened inner) ms)
  | some _ => none

/-- Start one more table of an array of tables in its parent. -/
def openElement (k : String) (ms : Members) : Option Members :=
  match ms.lookup k with
  | none => some (ms ++ [(k, .tables [])])
  | some (.tables _) => some (assign k (.tables []) ms)
  | some _ => none

end SodiumDecl.Toml
