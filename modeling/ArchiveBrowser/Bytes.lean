/-!
# Byte strings

Every stream, file and container of the library is a finite list of bytes. This
module fixes that type, the bytes of a text, the text with one letter for each byte,
the lower-case hexadecimal form of a byte string, and the two orders in which a
number is laid out in bytes.
-/

set_option autoImplicit false

namespace ArchiveBrowser

abbrev Bytes := List UInt8

namespace Bytes

def ofText (text : String) : Bytes :=
  text.toByteArray.data.toList

/-- The text whose letters have the numbers of the bytes. -/
def letters (bytes : Bytes) : String :=
  String.ofList (bytes.map fun byte => Char.ofNat byte.toNat)

def ofLetters (text : String) : Bytes :=
  text.toList.map fun letter => UInt8.ofNat letter.toNat

def hexDigits (byte : UInt8) : List Char :=
  [Nat.digitChar (byte.toNat / 16), Nat.digitChar (byte.toNat % 16)]

def hex (bytes : Bytes) : String :=
  String.ofList (bytes.flatMap hexDigits)

/-- The number whose base-256 digits are `bytes`, least significant first. -/
def littleEndian (bytes : Bytes) : Nat :=
  bytes.foldr (fun byte rest => byte.toNat + 256 * rest) 0

def ofNatLittleEndian : (width : Nat) → (value : Nat) → Bytes
  | 0, _ => []
  | width + 1, value => UInt8.ofNat (value % 256) :: ofNatLittleEndian width (value / 256)

def ofNatBigEndian (width value : Nat) : Bytes :=
  (ofNatLittleEndian width value).reverse

@[simp] theorem length_of_nat_little_endian (width value : Nat) :
    (ofNatLittleEndian width value).length = width := by
  induction width generalizing value with
  | zero => rfl
  | succ width ih => simp [ofNatLittleEndian, ih]

@[simp] theorem length_of_nat_big_endian (width value : Nat) :
    (ofNatBigEndian width value).length = width := by
  simp [ofNatBigEndian]

@[simp] theorem length_hex (bytes : Bytes) : bytes.hex.length = 2 * bytes.length := by
  induction bytes with
  | nil => rfl
  | cons byte rest ih =>
    simp only [hex, List.flatMap_cons, String.length_ofList, List.length_append,
      List.length_cons] at ih ⊢
    simp only [hexDigits, List.length_cons, List.length_nil]
    omega

end Bytes

end ArchiveBrowser
