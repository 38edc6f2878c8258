/-!
# Faulty UTF-8

`fromUtf8Lossy` reads bytes as UTF-8 and never fails. Where the bytes are no UTF-8 it puts
the replacement character, one for each longest start of a character that does not go on
as it has to, and one for each byte that no character starts with.
-/

namespace SodiumDecl.Text

/-- A character of which the first bytes are read: its bits so far, how many bytes are
missing, and the limits of the next one. -/
structure Partial where
  bits : Nat
  missing : Nat
  low : UInt8
  high : UInt8

/-- What stands for faulty bytes. -/
def replacement : Char := Char.ofNat 0xFFFD

/-- The characters that end with a byte where no character is under way, and the character
that starts there. The limits of the second byte keep out longer spellings than needed,
surrogates, and numbers above the last code point. -/
def startChar (b : UInt8) : List Char × Option Partial :=
  let n := b.toNat
  if n < 0x80 then ([Char.ofNat n], none)
  else if n < 0xC2 then ([replacement], none)
  else if n < 0xE0 then ([], some ⟨n % 32, 1, 0x80, 0xBF⟩)
  else if n < 0xF0 then
    ([], some ⟨n % 16, 2, if n = 0xE0 then 0xA0 else 0x80, if n = 0xED then 0x9F else 0xBF⟩)
  else if n < 0xF5 then
    ([], some ⟨n % 8, 3, if n = 0xF0 then 0x90 else 0x80, if n = 0xF4 then 0x8F else 0xBF⟩)
  else ([replacement], none)

/-- The characters that end with a byte, and the character that is under way behind it. -/
def nextByte (p : Option Partial) (b : UInt8) : List Char × Option Partial :=
  match p with
  | none => startChar b
  | some p =>
    if p.low ≤ b && b ≤ p.high then
      let bits := 64 * p.bits + b.toNat % 64
      if p.missing = 1 then ([Char.ofNat bits], none)
      else ([], some ⟨bits, p.missing - 1, 0x80, 0xBF⟩)
    else (replacement :: (startChar b).1, (startChar b).2)

/-- The characters of bytes behind a character under way. -/
def charsFrom (p : Option Partial) : List UInt8 → List Char
  | [] => if p.isSome then [replacement] else []
  | b :: bs => (nextByte p b).1 ++ charsFrom (nextByte p b).2 bs

/-- The text of bytes in UTF-8, whatever they are. -/
def fromUtf8Lossy (bytes : List UInt8) : String := String.ofList (charsFrom none bytes)

end SodiumDecl.Text
