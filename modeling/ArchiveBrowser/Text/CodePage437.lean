import ArchiveBrowser.Bytes

/-!
# Code page 437

The character set of entry names that do not declare themselves UTF-8. The lower
half is ASCII, control characters included; the upper half is the table below.
-/

set_option autoImplicit false

namespace ArchiveBrowser.Text.CodePage437

def upperHalf : Array Char :=
  ("ÇüéâäàåçêëèïîìÄÅÉæÆôöòûùÿÖÜ¢£¥₧ƒ" ++
   "áíóúñÑªº¿⌐¬½¼¡«»░▒▓│┤╡╢╖╕╣║╗╝╜╛┐" ++
   "└┴┬├─┼╞╟╚╔╩╦╠═╬╧╨╤╥╙╘╒╓╫╪┘┌█▄▌▐▀" ++
   "αßΓπΣσµτΦΘΩδ∞φε∩≡±≥≤⌠⌡÷≈°∙·√ⁿ²■\u00a0").toList.toArray

def decodeByte (byte : UInt8) : Char :=
  if byte < 0x80 then Char.ofNat byte.toNat else upperHalf.getD (byte.toNat - 0x80) '\ufffd'

def decode (bytes : Bytes) : String :=
  String.ofList (bytes.map decodeByte)

end ArchiveBrowser.Text.CodePage437
