import ArchiveBrowser.Text.GraphemeExtend
import ArchiveBrowser.Text.Unprintable

/-!
# Quoted text

A text between double quotes, as messages and log fields show it. A quote and a
backslash get a backslash; tab, line feed, carriage return and NUL have short
names; a character that could not be recognised on its own is written by its code
point in hexadecimal.
-/

set_option autoImplicit false

namespace ArchiveBrowser.Text

def codePointEscape (c : Char) : List Char :=
  ['\\', 'u', '\x7b'] ++ Nat.toDigits 16 c.toNat ++ ['\x7d']

def quotedChar (c : Char) : List Char :=
  match c with
  | '"' => ['\\', '"']
  | '\\' => ['\\', '\\']
  | '\t' => ['\\', 't']
  | '\n' => ['\\', 'n']
  | '\r' => ['\\', 'r']
  | '\x00' => ['\\', '0']
  | c => if isGraphemeExtend c || isUnprintable c then codePointEscape c else [c]

def quoted (text : String) : String :=
  String.ofList ('"' :: text.toList.flatMap quotedChar ++ ['"'])

end ArchiveBrowser.Text
