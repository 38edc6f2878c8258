import SodiumDecl.Archive.Zip
import SodiumDecl.Text.CodePage
import SodiumDecl.Text.Utf8

/-!
# Headers of members

What the directory of an archive says about a member. A header ends in extra fields, each
with a kind and a length. Four kinds count: numbers that do not fit 32 bits, the way of
encryption, and the name or the comment once more in UTF-8. The first field that is cut
short ends the extra fields and is no fault, but a field that contradicts itself or the
header makes the archive unusable.
-/

namespace SodiumDecl.Zip

/-- What a header in the directory says. -/
structure Header where
  rawName : List UInt8
  name : String
  comment : String
  method : Nat
  encrypted : Bool
  strong : Bool
  checksum : Nat
  size : Nat
  packedSize : Nat
  offset : Nat
  deriving DecidableEq, Repr

/-! ## Reading extra fields -/

/-- Why the reading of extra fields ends before they do. -/
inductive ExtraFault
  | cutShort
  | invalid
  deriving DecidableEq, Repr

/-- A reader of extra fields: the header with what the fields said so far, and the bytes
that are left. -/
abbrev ExtraReader := ExceptT ExtraFault (StateM (Header × List UInt8))

namespace ExtraReader

/-- The next bytes. -/
def take (n : Nat) : ExtraReader (List UInt8) := do
  let (h, bytes) ← get
  if bytes.length < n then throw .cutShort
  set (h, bytes.drop n)
  return bytes.take n

/-- The number in the next bytes. -/
def number (width : Nat) : ExtraReader Nat := return fromLittleEndian (← take width)

/-- The header so far. -/
def header : ExtraReader Header := return (← get).1

/-- Change the header. -/
def change (f : Header → Header) : ExtraReader Unit := modify fun s => (f s.1, s.2)

/-- Fail if something is wrong. -/
def refuse (wrong : Bool) : ExtraReader Unit := if wrong then throw .invalid else return ()

end ExtraReader

open ExtraReader

/-! ## Kinds -/

/-- What stands for a number that does not fit 32 bits. -/
def wideMark : Nat := 0xFFFFFFFF

/-- Read a number of 64 bits if it stands in the field, and give the bytes that it takes. -/
def wideNumber (stands : Bool) (store : Nat → Header → Header) : ExtraReader Nat := do
  if stands then
    change (store (← number 8))
    return 8
  else return 0

/-- The numbers of a header that do not fit 32 bits. A field with room for all three has
all three. -/
def wideField (length : Nat) : ExtraReader Unit := do
  let all := 24 ≤ length
  let a ← wideNumber (all || (← header).size = wideMark) fun n h => { h with size := n }
  let b ← wideNumber (all || (← header).packedSize = wideMark) fun n h => { h with packedSize := n }
  let c ← wideNumber (all || (← header).offset = wideMark) fun n h => { h with offset := n }
  refuse (length < a + b + c)
  let _ ← take (length - (a + b + c))

/-- The way of encryption: its version, its maker, its strength, and the method under it. -/
def encryptionField (length : Nat) : ExtraReader Unit := do
  refuse (length ≠ 7)
  let version ← number 2
  let maker ← number 2
  let strength ← number 1
  let method ← number 2
  refuse (maker ≠ 0x4541 || version ∉ [1, 2] || strength ∉ [1, 2, 3])
  change fun h => { h with method, strong := true }

/-- Times, one for each of three flags. A field with the length of one time has one. -/
def timesField (length : Nat) : ExtraReader Unit := do
  let flags ← number 1
  let times := [1, 2, 4].countP fun flag => flags / flag % 2 = 1
  refuse (8 ≤ flags || (length ≠ 5 && length ≠ 1 + 4 * times))
  let _ ← take (if length = 5 then 4 else 4 * times)

/-- A text in UTF-8 in the place of another one, whose checksum the field has. -/
def unicodeField (length : Nat) (old : List UInt8) : ExtraReader (List UInt8 × String) := do
  let _ ← take 1
  let sum ← number 4
  refuse (length < 5)
  let bytes ← take (length - 5)
  refuse ((Zip.checksum old).toNat ≠ sum)
  match String.fromUTF8? ⟨bytes.toArray⟩ with
  | some text => return (bytes, text)
  | none => throw .invalid

/-- One extra field. -/
def extraField : ExtraReader Unit := do
  let kind ← number 2
  let length ← number 2
  if kind = 0x0001 then wideField length
  else if kind = 0x9901 then encryptionField length
  else if kind = 0x5455 then timesField length
  else if kind = 0x6375 then
    let (_, comment) ← unicodeField length (nameBytes (← header).comment)
    change fun h => { h with comment }
  else if kind = 0x7075 then
    let (rawName, name) ← unicodeField length (← header).rawName
    change fun h => { h with rawName, name }
  else
    let _ ← take length

/-- All extra fields, at most `fuel` of them. -/
def extraFields : Nat → ExtraReader Unit
  | 0 => return ()
  | fuel + 1 => do
    if (← get).2.isEmpty then return ()
    extraField
    extraFields fuel

/-- What a header says together with its extra fields, if they are valid. -/
def Header.withExtra? (h : Header) (extra : List UInt8) : Option Header :=
  match (extraFields extra.length).run.run (h, extra) with
  | (.error .invalid, _) => none
  | (_, (h, _)) => some h

/-! ## Headers -/

/-- The method that is none, but says that an extra field has the way of encryption. -/
def encryptionMethod : Nat := 99

/-- The text of a name or a comment: UTF-8 if a flag says so. -/
def headerText (flags : Nat) (bytes : List UInt8) : String :=
  if flags / 0x800 % 2 = 1 then Text.fromUtf8Lossy bytes else Text.fromCodePage bytes

/-- The header at the front of `bytes`, and what follows it. -/
def header? (bytes : List UInt8) : Option (Header × List UInt8) := do
  let nameLength := numberAt bytes 28 2
  let extraLength := numberAt bytes 30 2
  let commentLength := numberAt bytes 32 2
  let fields := bytes.drop centralLength
  guard (centralSignature.isPrefixOf bytes && centralLength ≤ bytes.length &&
    nameLength + extraLength + commentLength ≤ fields.length)
  let flags := numberAt bytes 8 2
  let rawName := fields.take nameLength
  let comment := (fields.drop (nameLength + extraLength)).take commentLength
  let h : Header := {
    rawName
    name := headerText flags rawName
    comment := headerText flags comment
    method := numberAt bytes 10 2
    encrypted := flags % 2 = 1
    strong := false
    checksum := numberAt bytes 16 4
    size := numberAt bytes 24 4
    packedSize := numberAt bytes 20 4
    offset := numberAt bytes 42 4 }
  let h ← h.withExtra? ((fields.drop nameLength).take extraLength)
  guard (h.method ≠ encryptionMethod || h.strong)
  return (h, fields.drop (nameLength + extraLength + commentLength))

end SodiumDecl.Zip
