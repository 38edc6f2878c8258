/-!
# Deflated contents

`inflate?` unpacks deflated bytes: blocks that are stored as they are, or written in prefix
codes for bytes and for copies of what was written before. Bytes that contradict the format
give nothing. Bytes that end too early give what is written by then.

A prefix code is kept as the symbols of each length, from the length 1 on, in increasing
order. This determines the codes: those of one length are consecutive numbers, and the
first of them follows the last code of the length before, with one more bit.
-/

namespace SodiumDecl.Zip

/-- Why unpacking ends before the last block does. -/
inductive InflateFault
  | cutShort
  | corrupt
  deriving DecidableEq, Repr

/-- The bits that are left, and the bytes that are written. -/
structure InflateState where
  bits : List Bool
  output : Array UInt8

/-- A step of unpacking. -/
abbrev Inflate := ExceptT InflateFault (StateM InflateState)

namespace Inflate

/-- Fail if the format does not allow what is there. -/
def refuse (wrong : Bool) : Inflate Unit := if wrong then throw .corrupt else return ()

/-- The next bit. -/
def bit : Inflate Nat := do
  let s ← get
  match s.bits with
  | [] => throw .cutShort
  | b :: bits =>
    set { s with bits }
    return b.toNat

/-- The number in the next bits, the lowest first. -/
def number : Nat → Inflate Nat
  | 0 => return 0
  | width + 1 => do
    let b ← bit
    return b + 2 * (← number width)

/-- Write a byte. -/
def write (b : UInt8) : Inflate Unit := modify fun s => { s with output := s.output.push b }

/-! ## Prefix codes -/

/-- The symbols of each length, from the length 1 on. -/
abbrev Code := List (List Nat)

/-- The longest code of a symbol. -/
def longest : Nat := 15

/-- The code in which the symbol `n` has the length `lengths[n]`, a length 0 being that of
a symbol that is not used. -/
def Code.ofLengths (lengths : List Nat) : Code :=
  (List.range' 1 longest).map fun length =>
    (List.range lengths.length).filter fun n => lengths[n]? = some length

/-- How many symbols are used. -/
def Code.used (c : Code) : Nat := c.flatten.length

/-- The share of the bit sequences of the longest length that start with a code. -/
def Code.share (c : Code) : Nat :=
  c.foldl (fun share symbols => 2 * share + symbols.length) 0

/-- Every long enough bit sequence starts with exactly one code. -/
def Code.isComplete (c : Code) : Bool := c.share = Nat.pow 2 longest

/-- The next symbol, where the bits read so far make the number `code`, and `first` is the
number that follows the last code of that length. -/
def symbolFrom (code first : Nat) : Code → Inflate Nat
  | [] => throw .corrupt
  | symbols :: longer => do
    let code := 2 * code + (← bit)
    let first := 2 * first
    match symbols[code - first]? with
    | some n => return n
    | none => symbolFrom code (first + symbols.length) longer

/-- The next symbol. -/
def symbol (c : Code) : Inflate Nat := symbolFrom 0 0 c

/-! ## Bytes and copies -/

/-- The least lengths of copies, with the bits that are added to them. -/
def copyLengths : List (Nat × Nat) := [
  (3, 0), (4, 0), (5, 0), (6, 0), (7, 0), (8, 0), (9, 0), (10, 0), (11, 1), (13, 1), (15, 1),
  (17, 1), (19, 2), (23, 2), (27, 2), (31, 2), (35, 3), (43, 3), (51, 3), (59, 3), (67, 4),
  (83, 4), (99, 4), (115, 4), (131, 5), (163, 5), (195, 5), (227, 5), (258, 0)]

/-- The least distances of copies, with the bits that are added to them. -/
def copyDistances : List (Nat × Nat) := [
  (1, 0), (2, 0), (3, 0), (4, 0), (5, 1), (7, 1), (9, 2), (13, 2), (17, 3), (25, 3), (33, 4),
  (49, 4), (65, 5), (97, 5), (129, 6), (193, 6), (257, 7), (385, 7), (513, 8), (769, 8),
  (1025, 9), (1537, 9), (2049, 10), (3073, 10), (4097, 11), (6145, 11), (8193, 12),
  (12289, 12), (16385, 13), (24577, 13)]

/-- A number that starts at an entry of a table. -/
def fromTable (table : List (Nat × Nat)) (n : Nat) : Inflate Nat := do
  match table[n]? with
  | some (least, width) => return least + (← number width)
  | none => throw .corrupt

/-- Write once more what was written at a distance. -/
def copy (distance : Nat) : Nat → Inflate Unit
  | 0 => return ()
  | length + 1 => do
    let s ← get
    match s.output[s.output.size - distance]? with
    | some b => write b
    | none => throw .corrupt
    copy distance length

/-- The symbol that ends a block. -/
def endOfBlock : Nat := 256

/-- The symbols of a block, at most `fuel` of them. -/
def symbols (literals distances : Code) : Nat → Inflate Unit
  | 0 => throw .cutShort
  | fuel + 1 => do
    let n ← symbol literals
    if n < endOfBlock then
      write n.toUInt8
      symbols literals distances fuel
    else if n = endOfBlock then return ()
    else
      let length ← fromTable copyLengths (n - endOfBlock - 1)
      let distance ← fromTable copyDistances (← symbol distances)
      refuse ((← get).output.size < distance)
      copy distance length
      symbols literals distances fuel

/-! ## The codes of a block -/

/-- The lengths of the codes for bytes and copies if the block has none of its own. -/
def fixedLiterals : List Nat :=
  List.replicate 144 8 ++ List.replicate 112 9 ++ List.replicate 24 7 ++ List.replicate 8 8

/-- The lengths of the codes for distances if the block has none of its own. -/
def fixedDistances : List Nat := List.replicate 32 5

/-- The order in which the code for lengths is written. -/
def lengthOrder : List Nat :=
  [16, 17, 18, 0, 8, 7, 9, 6, 10, 5, 11, 4, 12, 3, 13, 2, 14, 1, 15]

/-- The next `count` numbers of three bits. -/
def threes : Nat → Inflate (List Nat)
  | 0 => return []
  | count + 1 => do
    let n ← number 3
    return n :: (← threes count)

/-- The lengths that a symbol stands for behind the lengths `done`, the last one first. -/
def lengthRun (n : Nat) (done : List Nat) : Inflate (List Nat) := do
  if n < 16 then return [n]
  else if n = 16 then
    match done with
    | [] => throw .corrupt
    | last :: _ => return List.replicate (3 + (← number 2)) last
  else if n = 17 then return List.replicate (3 + (← number 3)) 0
  else return List.replicate (11 + (← number 7)) 0

/-- Lengths until there are `count` of them, the last one first, in at most `fuel` runs. -/
def lengths (c : Code) (count : Nat) : Nat → List Nat → Inflate (List Nat)
  | 0, done => return done
  | fuel + 1, done => do
    if count ≤ done.length then return done
    let run ← lengthRun (← symbol c) done
    lengths c count fuel (run ++ done)

/-- A code that a block may use: complete, or with one symbol at most. -/
def usable (lengths : List Nat) : Inflate Code := do
  let c := Code.ofLengths lengths
  refuse (!c.isComplete && 1 < c.used)
  return c

/-- The codes that a block writes in front of its symbols. -/
def ownCodes : Inflate (Code × Code) := do
  let literals := 257 + (← number 5)
  let distances := 1 + (← number 5)
  let count := 4 + (← number 4)
  refuse (286 < literals || 30 < distances)
  let written := lengthOrder.zip (← threes count)
  let c := Code.ofLengths ((List.range 19).map fun n => (written.lookup n).getD 0)
  refuse (!c.isComplete)
  let all := (← lengths c (literals + distances) (literals + distances) []).reverse
  refuse (all.length ≠ literals + distances)
  return (← usable (all.take literals), ← usable (all.drop literals))

/-! ## Blocks -/

/-- Write the next `count` bytes. -/
def bytes : Nat → Inflate Unit
  | 0 => return ()
  | count + 1 => do
    write (← number 8).toUInt8
    bytes count

/-- A stored block, which starts at the next whole byte. Its length is written twice, the
second time with every bit inverted. -/
def storedBlock : Inflate Unit := do
  modify fun s => { s with bits := s.bits.drop (s.bits.length % 8) }
  let length ← number 16
  let inverse ← number 16
  refuse (length + inverse ≠ 0xFFFF)
  bytes length

/-- Blocks up to the one that says that it is the last, at most `fuel` of them. -/
def blocks : Nat → Inflate Unit
  | 0 => throw .cutShort
  | fuel + 1 => do
    let isLast ← bit
    let kind ← number 2
    let room := (← get).bits.length
    if kind = 0 then storedBlock
    else if kind = 1 then
      symbols (Code.ofLengths fixedLiterals) (Code.ofLengths fixedDistances) room
    else if kind = 2 then
      let (literals, distances) ← ownCodes
      symbols literals distances room
    else throw .corrupt
    if isLast = 1 then return () else blocks fuel

/-- The bits of a byte, the lowest first. -/
def bitsOf (b : UInt8) : List Bool := (List.range 8).map fun i => b.toNat.testBit i

end Inflate

/-- What deflated bytes unpack to, as far as they go. -/
def inflate? (packed : List UInt8) : Option (List UInt8) :=
  let bits := packed.flatMap Inflate.bitsOf
  match (Inflate.blocks (bits.length + 1)).run.run ⟨bits, #[]⟩ with
  | (.error .corrupt, _) => none
  | (_, s) => some s.output.toList

end SodiumDecl.Zip
