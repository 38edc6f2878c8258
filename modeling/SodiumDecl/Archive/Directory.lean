import SodiumDecl.Archive.Header
import SodiumDecl.Archive.Inflate

/-!
# The directory of an archive

The directory is found from the end of the archive. An end record says where it is, and
for a large archive a second record with wider numbers does. Something may stand before the
archive: then every offset counts from where the archive starts. `members?` takes the last
end record from which the directory can be read as a whole.

A directory is only accepted if every member has its own header and starts before the
directory does. Of members with one name the last one counts, in the place of the first.
-/

namespace SodiumDecl.Zip

/-! ## Signatures -/

/-- The signature of a wide end record. -/
def wideEndSignature : List UInt8 := [0x50, 0x4B, 0x06, 0x06]

/-- The signature of what tells where the wide end record is. -/
def locatorSignature : List UInt8 := [0x50, 0x4B, 0x06, 0x07]

/-- The length of a wide end record without data of its own. -/
def wideEndLength : Nat := 56

/-- The length of what tells where the wide end record is. -/
def locatorLength : Nat := 20

/-- The places of a signature in bytes that start at the place `i`, before those found so
far. -/
def placesFrom (signature : List UInt8) (i : Nat) (found : List Nat) : List UInt8 → List Nat
  | [] => found
  | b :: bs =>
    placesFrom signature (i + 1) (if signature.isPrefixOf (b :: bs) then i :: found else found) bs

/-- The places of a signature, the last one first. -/
def places (signature bytes : List UInt8) : List Nat := placesFrom signature 0 [] bytes

/-- The places of a signature from one place up to another, the first one first. -/
def placesBetween (signature bytes : List UInt8) (first stop : Nat) : List Nat :=
  ((places signature bytes).filter fun i => first ≤ i && i < stop).reverse

/-! ## End records -/

/-- What an end record says: the number of this part and of the part with the directory,
how many members this part and the archive have, and the offset of the directory. -/
structure EndRecord where
  disk : Nat
  directoryDisk : Nat
  countHere : Nat
  count : Nat
  offset : Nat

/-- The end record at a place, with the whole of its comment. -/
def endRecordAt? (bytes : List UInt8) (i : Nat) : Option EndRecord := do
  let record := bytes.drop i
  guard (endSignature.isPrefixOf record && endLength + numberAt record 20 2 ≤ record.length)
  return {
    disk := numberAt record 4 2
    directoryDisk := numberAt record 6 2
    countHere := numberAt record 8 2
    count := numberAt record 10 2
    offset := numberAt record 16 4 }

/-- Some numbers of an end record do not fit it. -/
def EndRecord.mayBeWide (r : EndRecord) : Bool := r.count = 0xFFFF || r.offset = wideMark

/-- Where a wide end record is, and what is said about parts of the archive. -/
structure Locator where
  directoryDisk : Nat
  offset : Nat
  disks : Nat

/-- The locator in front of an end record. -/
def locatorBefore? (bytes : List UInt8) (i : Nat) : Option Locator := do
  guard (locatorLength ≤ i)
  let record := bytes.drop (i - locatorLength)
  guard (locatorSignature.isPrefixOf record)
  return {
    directoryDisk := numberAt record 4 4
    offset := numberAt record 8 8
    disks := numberAt record 16 4 }

/-! ## Where the directory is -/

/-- Where the archive and its directory start, and how many members there are. -/
structure Extent where
  shift : Nat
  start : Nat
  count : Nat
  deriving DecidableEq, Repr

/-- The extent that an end record at a place gives. The first header at or behind the
offset is that of the first member. -/
def EndRecord.extent? (r : EndRecord) (bytes : List UInt8) (i : Nat) : Option Extent := do
  guard (r.disk = r.directoryDisk)
  let shift ←
    if r.count = 0 then some (i - r.offset)
    else (placesBetween centralSignature bytes r.offset i).head?.map (· - r.offset)
  return ⟨shift, shift + r.offset, r.countHere⟩

/-- The extent that a wide end record at a place gives, which has to reach up to the
locator at the place `i`. -/
def Locator.extentAt? (l : Locator) (bytes : List UInt8) (i j : Nat) : Option Extent := do
  let record := bytes.drop j
  let length := numberAt record 4 8
  let countHere := numberAt record 24 8
  let count := numberAt record 32 8
  let offset := numberAt record 48 8
  guard (wideEndLength ≤ length + 12 && length + 12 = i - j &&
    numberAt record 20 4 = l.directoryDisk && count * centralLength + offset ≤ j)
  guard (countHere ≤ count && numberAt record 14 2 ≤ numberAt record 12 2 &&
    numberAt record 16 4 = numberAt record 20 4)
  return ⟨j - l.offset, j - l.offset + offset, count⟩

/-- The extent that a locator at the place `i` leads to. -/
def Locator.extent? (l : Locator) (bytes : List UInt8) (i : Nat) : Option Extent := do
  guard (l.offset < i && l.disks ≤ 1)
  (placesBetween wideEndSignature bytes l.offset i).findSome? (l.extentAt? bytes i)

/-- The extent of an archive with the end record at a place. -/
def extent? (bytes : List UInt8) (i : Nat) : Option Extent := do
  let r ← endRecordAt? bytes i
  match if r.mayBeWide then locatorBefore? bytes i else none with
  | some l => l.extent? bytes (i - locatorLength)
  | none => r.extent? bytes i

/-! ## Members -/

/-- A member that can be extracted. -/
structure PackedMember where
  name : String
  method : Nat
  locked : Bool
  checksum : Nat
  packedSize : Nat
  start : Nat
  deriving DecidableEq, Repr

/-- The headers of `count` members. -/
def headers? : Nat → List UInt8 → Option (List Header)
  | 0, _ => some []
  | count + 1, bytes => do
    let (h, rest) ← header? bytes
    return h :: (← headers? count rest)

/-- The place of the contents of a member, behind its own header. -/
def contentsPlace? (bytes : List UInt8) (i : Nat) : Option Nat := do
  let record := bytes.drop i
  guard (localSignature.isPrefixOf record && localLength ≤ record.length)
  return i + localLength + numberAt record 26 2 + numberAt record 28 2

/-- The member of a header. -/
def Header.member? (h : Header) (x : Extent) (bytes : List UInt8) : Option PackedMember := do
  guard (h.offset + x.shift < x.start)
  let start ← contentsPlace? bytes (h.offset + x.shift)
  guard (start ≤ x.start)
  return {
    name := h.name
    method := h.method
    locked := h.encrypted || h.strong
    checksum := h.checksum
    packedSize := h.packedSize
    start }

/-- Put a member in the place of the one with its name, or behind all. -/
def putMember : List PackedMember → PackedMember → List PackedMember
  | [], e => [e]
  | x :: xs, e => if x.name = e.name then e :: xs else x :: putMember xs e

/-- The members of an archive with the end record at a place. -/
def membersAt? (bytes : List UInt8) (i : Nat) : Option (List PackedMember) := do
  let x ← extent? bytes i
  let hs ← headers? x.count (bytes.drop x.start)
  let members ← hs.mapM (·.member? x bytes)
  return members.foldl putMember []

/-- The members of an archive. -/
def members? (bytes : List UInt8) : Option (List PackedMember) :=
  (places endSignature bytes).findSome? (membersAt? bytes)

namespace PackedMember

/-- The methods that are known: stored, deflated, and five that no contents come out of. -/
def knownMethods : List Nat := [0, 8, 9, 12, 14, 93, 95]

/-- The contents can be asked for. -/
def isReadable (e : PackedMember) : Bool := !e.locked && e.method ∈ knownMethods

/-- The bytes of the member in the archive. -/
def packed (e : PackedMember) (bytes : List UInt8) : List UInt8 :=
  (bytes.drop e.start).take e.packedSize

/-- What comes out of the bytes of the member. -/
def contents? (e : PackedMember) (bytes : List UInt8) : Option (List UInt8) :=
  if e.method = 0 then some (e.packed bytes)
  else if e.method = 8 then inflate? (e.packed bytes)
  else none

/-- The contents are those that were packed. -/
def isIntact (e : PackedMember) (contents : List UInt8) : Bool :=
  (Zip.checksum contents).toNat = e.checksum

/-- A name that ends in a slash or a backslash is a directory. -/
def isDirectory (e : PackedMember) : Bool :=
  match e.name.toList.getLast? with
  | some c => c = '/' || c = '\\'
  | none => false

end PackedMember

end SodiumDecl.Zip
