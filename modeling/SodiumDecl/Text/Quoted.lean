import SodiumDecl.Text.Lowercase
import SodiumDecl.Text.UnprintableTable

/-!
# Quoted text

`quoted` writes a text between double quotes, with escapes for the quote, the backslash
and every character that would not show.
-/

namespace SodiumDecl.Text

/-- A code point in hexadecimal, without leading zeros. -/
def hex (n : Nat) : List Char := Nat.toDigits 16 n

/-- A character inside quotes. -/
def quotedChar (c : Char) : List Char :=
  if c = '"' then ['\\', '"']
  else if c = '\\' then ['\\', '\\']
  else if c = '\n' then ['\\', 'n']
  else if c = '\r' then ['\\', 'r']
  else if c = '\t' then ['\\', 't']
  else if c.toNat = 0 then ['\\', '0']
  else if c.toNat < 0x20 || c.toNat == 0x7F || (0x7F < c.toNat && inTable unprintable c) then
    ['\\', 'u', '{'] ++ hex c.toNat ++ ['}']
  else [c]

/-- The quoted form of a text. -/
def quoted (s : String) : String := String.ofList ('"' :: s.toList.flatMap quotedChar ++ ['"'])

end SodiumDecl.Text
