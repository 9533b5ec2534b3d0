import ArchiveBrowser.Bytes
import Mathlib

/-!
# Hexadecimal text

Two digits stand for each byte of a byte string. Where the bytes are those of a number, most
significant first, they are the digits of the number, with zeros in front.
-/

set_option autoImplicit false

namespace ArchiveBrowser.Bytes

def hexAlphabet : List Char := "0123456789abcdef".toList

theorem digit_mem_alphabet {value : Nat} (small : value < 16) :
    Nat.digitChar value ∈ hexAlphabet := by
  have each : ∀ digit ∈ List.range 16, Nat.digitChar digit ∈ hexAlphabet := by decide
  exact each value (List.mem_range.mpr small)

theorem hex_mem_alphabet (bytes : Bytes) : ∀ c ∈ bytes.hex.toList, c ∈ hexAlphabet := by
  intro c member
  rw [hex, String.toList_ofList, List.mem_flatMap] at member
  obtain ⟨byte, -, digit⟩ := member
  have bound : byte.toNat < 256 := byte.toNat_lt
  simp only [hexDigits, List.mem_cons, List.not_mem_nil, or_false] at digit
  rcases digit with rfl | rfl
  · exact digit_mem_alphabet (by omega)
  · exact digit_mem_alphabet (by omega)

theorem hex_append (first second : Bytes) :
    hex (first ++ second) = hex first ++ hex second := by
  rw [hex, List.flatMap_append, String.ofList_append]
  rfl

/-- The digits of a number, with zeros in front of them up to a width. -/
def paddedHex (width value : Nat) : String :=
  String.ofList (List.leftpad width '0' (Nat.toDigits 16 value))

/-- The last digit of a number is split off, as long as there is room for another. -/
theorem padded_digits_succ {width : Nat} (room : 0 < width) (value : Nat) :
    List.leftpad (width + 1) '0' (Nat.toDigits 16 value) =
      List.leftpad width '0' (Nat.toDigits 16 (value / 16)) ++ [Nat.digitChar (value % 16)] := by
  by_cases single : value < 16
  · have nothing : value / 16 = 0 := by omega
    obtain ⟨zeros, rfl⟩ := Nat.exists_eq_add_of_lt room
    rw [Nat.toDigits_of_lt_base single, nothing, Nat.toDigits_zero, Nat.mod_eq_of_lt single]
    simp [List.leftpad, List.replicate_succ']
  · rw [Nat.toDigits_of_base_le (by decide) (Nat.le_of_not_lt single)]
    simp [List.leftpad, List.append_assoc]

theorem big_endian_succ (width value : Nat) :
    ofNatBigEndian (width + 1) value =
      ofNatBigEndian width (value / 256) ++ [UInt8.ofNat (value % 256)] := by
  rw [ofNatBigEndian, ofNatLittleEndian, List.reverse_cons]
  rfl

theorem hex_digits_of_rest (value : Nat) :
    hexDigits (UInt8.ofNat (value % 256)) =
      [Nat.digitChar (value / 16 % 16), Nat.digitChar (value % 16)] := by
  have same : (UInt8.ofNat (value % 256)).toNat = value % 256 := by
    simp
  have high : value % 256 / 16 = value / 16 % 16 := by omega
  have low : value % 256 % 16 = value % 16 := by omega
  rw [hexDigits, same, high, low]

theorem padded_hex_byte {width : Nat} (room : 0 < width) (value : Nat) :
    paddedHex (width + 2) value =
      paddedHex width (value / 256) ++ hex [UInt8.ofNat (value % 256)] := by
  have twice : value / 16 / 16 = value / 256 := Nat.div_div_eq_div_mul value 16 16
  have last : hex [UInt8.ofNat (value % 256)] =
      String.ofList (hexDigits (UInt8.ofNat (value % 256))) := by
    rw [hex, List.flatMap_singleton]
  rw [last, hex_digits_of_rest, paddedHex, padded_digits_succ (by omega),
    padded_digits_succ room, twice, paddedHex, ← String.ofList_append]
  simp

theorem hex_big_endian {width value : Nat} (fits : value < 256 ^ (width + 1)) :
    (ofNatBigEndian (width + 1) value).hex = paddedHex (2 * (width + 1)) value := by
  induction width generalizing value with
  | zero =>
      have single : value / 16 < 16 := by omega
      have rest : value / 16 % 16 = value / 16 := Nat.mod_eq_of_lt single
      have zeros : List.leftpad 1 '0' (Nat.toDigits 16 (value / 16)) =
          [Nat.digitChar (value / 16)] := by
        rw [Nat.toDigits_of_lt_base single]
        rfl
      rw [big_endian_succ, hex, List.flatMap_append, ofNatBigEndian, ofNatLittleEndian,
        List.reverse_nil, List.flatMap_nil, List.nil_append, List.flatMap_singleton,
        hex_digits_of_rest, rest, paddedHex, padded_digits_succ (by decide), zeros]
      rfl
  | succ width ih =>
      have smaller : value / 256 < 256 ^ (width + 1) := by
        rw [Nat.pow_succ] at fits
        exact Nat.div_lt_of_lt_mul (by rwa [Nat.mul_comm])
      rw [big_endian_succ, hex_append, ih smaller, ← padded_hex_byte (by omega)]
      rfl

end ArchiveBrowser.Bytes
