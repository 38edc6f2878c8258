/-!
# The code page of archives

The encoding of names in archives that do not say that they use UTF-8: a byte below `0x80`
is an ASCII character, and each of the others stands for one character of the code page.
-/

namespace SodiumDecl.Text

/-- The characters of the bytes from `0x80` on. -/
def codePage : List Char :=
  "ÇüéâäàåçêëèïîìÄÅÉæÆôöòûùÿÖÜ¢£¥₧ƒ".toList
    ++ "áíóúñÑªº¿⌐¬½¼¡«»░▒▓│┤╡╢╖╕╣║╗╝╜╛┐".toList
    ++ "└┴┬├─┼╞╟╚╔╩╦╠═╬╧╨╤╥╙╘╒╓╫╪┘┌█▄▌▐▀".toList
    ++ "αßΓπΣσµτΦΘΩδ∞φε∩≡±≥≤⌠⌡÷≈°∙·√ⁿ²■\u00a0".toList

/-- The character of a byte. -/
def codePageChar (b : UInt8) : Char :=
  if b < 0x80 then Char.ofNat b.toNat else codePage.getD (b.toNat - 0x80) ' '

/-- The text of bytes in the code page. -/
def fromCodePage (bytes : List UInt8) : String := String.ofList (bytes.map codePageChar)

end SodiumDecl.Text
