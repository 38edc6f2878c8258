/-!
# Zip archives

Archives of stored members. An archive is the members, each after a header of its own, a
directory that says where each one starts, and an end record that says where the directory
is. `pack` writes one. All numbers are little-endian.
-/

namespace SodiumDecl.Zip

/-! ## Numbers -/

/-- The lowest `width` bytes of a number, the lowest first. -/
def littleEndian : Nat → Nat → List UInt8
  | 0, _ => []
  | width + 1, n => n.toUInt8 :: littleEndian width (n / 256)

/-- The number that bytes stand for, the lowest first. -/
def fromLittleEndian (bytes : List UInt8) : Nat :=
  bytes.foldr (fun b n => b.toNat + 256 * n) 0

/-- The number in `width` bytes from an offset. -/
def numberAt (bytes : List UInt8) (offset width : Nat) : Nat :=
  fromLittleEndian ((bytes.drop offset).take width)

/-! ## Checksums -/

/-- One bit of the checksum. -/
def checksumBit (r : UInt32) : UInt32 :=
  if r &&& 1 = 1 then (r >>> 1) ^^^ 0xEDB88320 else r >>> 1

/-- One byte of the checksum. -/
def checksumByte (r : UInt32) (b : UInt8) : UInt32 :=
  Nat.repeat checksumBit 8 (r ^^^ b.toUInt32)

/-- The cyclic checksum of a member. -/
def checksum (bytes : List UInt8) : UInt32 :=
  (bytes.foldl checksumByte 0xFFFFFFFF) ^^^ 0xFFFFFFFF

/-! ## Records -/

/-- A member to pack. A name that ends in a slash is a directory. -/
structure Member where
  name : String
  contents : List UInt8

/-- The signature of a member's own header. -/
def localSignature : List UInt8 := [0x50, 0x4B, 0x03, 0x04]

/-- The signature of a header in the directory. -/
def centralSignature : List UInt8 := [0x50, 0x4B, 0x01, 0x02]

/-- The signature of the end record. -/
def endSignature : List UInt8 := [0x50, 0x4B, 0x05, 0x06]

/-- The length of a member's own header, without its name. -/
def localLength : Nat := 30

/-- The length of a header in the directory, without its name. -/
def centralLength : Nat := 46

/-- The length of the end record, without a comment. -/
def endLength : Nat := 22

/-- The bytes of a name. -/
def nameBytes (name : String) : List UInt8 := name.toUTF8.toList

/-- The fields that both headers of a member share: version, flags, method, time, date,
checksum and twice the size. -/
def sharedFields (m : Member) : List UInt8 :=
  littleEndian 2 20 ++ littleEndian 2 0x800 ++ littleEndian 2 0 ++ littleEndian 2 0
    ++ littleEndian 2 0x21 ++ littleEndian 4 (checksum m.contents).toNat
    ++ littleEndian 4 m.contents.length ++ littleEndian 4 m.contents.length
    ++ littleEndian 2 (nameBytes m.name).length ++ littleEndian 2 0

/-- A member behind its own header. -/
def localRecord (m : Member) : List UInt8 :=
  localSignature ++ sharedFields m ++ nameBytes m.name ++ m.contents

/-- The header in the directory of a member that starts at an offset. -/
def centralRecord (m : Member) (offset : Nat) : List UInt8 :=
  centralSignature ++ littleEndian 2 20 ++ sharedFields m ++ littleEndian 2 0
    ++ littleEndian 2 0 ++ littleEndian 2 0 ++ littleEndian 4 0 ++ littleEndian 4 offset
    ++ nameBytes m.name

/-- The end record of an archive with `count` members. -/
def endRecord (count size offset : Nat) : List UInt8 :=
  endSignature ++ littleEndian 2 0 ++ littleEndian 2 0 ++ littleEndian 2 count
    ++ littleEndian 2 count ++ littleEndian 4 size ++ littleEndian 4 offset ++ littleEndian 2 0

/-! ## Packing -/

/-- The directory of members that start at an offset. -/
def packDirectory (offset : Nat) : List Member → List UInt8
  | [] => []
  | m :: ms => centralRecord m offset ++ packDirectory (offset + (localRecord m).length) ms

/-- The archive of some members. -/
def pack (ms : List Member) : List UInt8 :=
  let members := ms.flatMap localRecord
  let directory := packDirectory 0 ms
  members ++ directory ++ endRecord ms.length directory.length members.length

end SodiumDecl.Zip
