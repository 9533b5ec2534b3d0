import ArchiveBrowser.Digest.Crc32

/-!
# The checksum bit by bit

`bitSerial` divides a message by the polynomial one bit at a time, with no table and no bytes
in it. Entering a bit is linear in the register and the bit together, and a word whose own bits
are entered into it is shifted out. What the table has for eight bits follows from these two
facts: `absorb` is eight steps of `enterBit`, for every register and every byte.
-/

set_option autoImplicit false

namespace ArchiveBrowser.Digest.Crc32

/-- The bits of a byte, least significant first. -/
def bitsOf (byte : UInt8) : List Bool :=
  (List.range 8).map byte.toBitVec.getLsbD

/-- What is added to the register: the reflected polynomial if the bit that leaves it differs
from the bit that enters. -/
def feedback (differs : Bool) : BitVec 32 :=
  if differs then 0xedb88320#32 else 0#32

def enterBit (register : BitVec 32) (bit : Bool) : BitVec 32 :=
  (register >>> 1) ^^^ feedback (register.getLsbD 0 ^^ bit)

/-- The checksum of a message: a register of ones, all bits entered, and the complement. -/
def bitSerial (bytes : Bytes) : BitVec 32 :=
  ~~~((bytes.flatMap bitsOf).foldl enterBit (BitVec.allOnes 32))

theorem feedback_xor (first second : Bool) :
    feedback (first ^^ second) = feedback first ^^^ feedback second := by
  cases first <;> cases second <;> decide

theorem enter_bit_xor (first second : BitVec 32) (bit other : Bool) :
    enterBit (first ^^^ second) (bit ^^ other) = enterBit first bit ^^^ enterBit second other := by
  have differ : ((first ^^^ second).getLsbD 0 ^^ (bit ^^ other)) =
      ((first.getLsbD 0 ^^ bit) ^^ (second.getLsbD 0 ^^ other)) := by
    rw [BitVec.getLsbD_xor, Bool.xor_assoc, Bool.xor_left_comm (second.getLsbD 0), Bool.xor_assoc]
  unfold enterBit
  rw [differ, feedback_xor, BitVec.ushiftRight_xor_distrib]
  ac_rfl

theorem enter_differences {bits others : List Bool} (sameLength : bits.length = others.length)
    (first second : BitVec 32) :
    (List.zipWith (· ^^ ·) bits others).foldl enterBit (first ^^^ second) =
      bits.foldl enterBit first ^^^ others.foldl enterBit second := by
  induction bits generalizing others first second with
  | nil =>
      rw [List.eq_nil_of_length_eq_zero sameLength.symm]
      rfl
  | cons bit bits ih =>
      cases others with
      | nil => cases sameLength
      | cons other others =>
          rw [List.zipWith_cons_cons, List.foldl_cons, enter_bit_xor]
          exact ih (Nat.succ.inj sameLength) _ _

theorem enter_bits_xor (bits : List Bool) (first second : BitVec 32) :
    bits.foldl enterBit (first ^^^ second) =
      (List.replicate bits.length false).foldl enterBit first ^^^ bits.foldl enterBit second := by
  have unchanged : List.zipWith (· ^^ ·) (List.replicate bits.length false) bits = bits := by
    induction bits with
    | nil => rfl
    | cons bit bits ih => simp [List.replicate_succ, ih]
  rw [← enter_differences List.length_replicate, unchanged]

theorem enter_own_bits (word : BitVec 32) (count : Nat) :
    ((List.range count).map word.getLsbD).foldl enterBit word = word >>> count := by
  induction count with
  | zero => exact (BitVec.ushiftRight_zero word).symm
  | succ count ih =>
      have lowest : ((word >>> count).getLsbD 0 ^^ word.getLsbD count) = false := by
        rw [BitVec.getLsbD_ushiftRight, Nat.add_zero, Bool.xor_self]
      rw [List.range_succ, List.map_append, List.foldl_append, ih, List.map_singleton,
        List.foldl_cons, List.foldl_nil, enterBit, lowest, ← BitVec.shiftRight_add]
      exact BitVec.xor_zero

/-! ## The table -/

theorem shift_bit_eq (register : UInt32) :
    (shiftBit register).toBitVec = enterBit register.toBitVec false := by
  have lowest : register &&& 1 = 0 ↔ register.toBitVec.getLsbD 0 = false := by
    rw [← UInt32.toBitVec_inj, UInt32.toBitVec_and]
    change register.toBitVec &&& 1#32 = 0#32 ↔ _
    rw [BitVec.and_one_eq_setWidth_ofBool_getLsbD]
    cases register.toBitVec.getLsbD 0 <;> decide
  unfold shiftBit enterBit
  rw [Bool.xor_false]
  cases lowBit : register.toBitVec.getLsbD 0 with
  | false =>
      rw [if_pos (lowest.mpr lowBit)]
      exact BitVec.xor_zero.symm
  | true =>
      rw [if_neg (by simp [lowest, lowBit])]
      rfl

theorem shift_byte_eq (register : UInt32) :
    (shiftByte register).toBitVec =
      (List.replicate 8 false).foldl enterBit register.toBitVec := by
  have steps : ∀ count, (Nat.repeat shiftBit count register).toBitVec =
      (List.replicate count false).foldl enterBit register.toBitVec := by
    intro count
    induction count with
    | zero => rfl
    | succ count ih =>
        rw [List.replicate_succ', List.foldl_append, ← ih]
        exact shift_bit_eq _
  exact steps 8

theorem table_entry {index : UInt32} (inside : index.toNat < 256) :
    table.getD index.toNat 0 = shiftByte index := by
  have size : index.toNat < table.size := by
    rw [table, Array.size_ofFn]
    exact inside
  rw [Array.getD_eq_getD_getElem?, Array.getElem?_eq_getElem size, Option.getD_some]
  simp [table]

/-- The position in the table for a register and a byte. -/
def indexOf (register : UInt32) (byte : UInt8) : UInt32 :=
  (register ^^^ byte.toUInt32) &&& 0xff

theorem index_lt (register : UInt32) (byte : UInt8) : (indexOf register byte).toNat < 256 := by
  rw [indexOf, UInt32.toNat_and]
  exact Nat.lt_of_le_of_lt Nat.and_le_right (by decide)

theorem index_bit (register : UInt32) (byte : UInt8) (place : Nat) :
    (indexOf register byte).toBitVec.getLsbD place =
      if place < 8 then register.toBitVec.getLsbD place ^^ byte.toBitVec.getLsbD place
      else false := by
  have mask : (0xff#32).getLsbD place = decide (place < 8) := by
    rw [BitVec.getLsbD_ofNat]
    have power : (0xff : Nat) = 2 ^ 8 - 1 := rfl
    rw [power, Nat.testBit_two_pow_sub_one, ← Bool.decide_and]
    congr 1
    simp only [eq_iff_iff]
    omega
  have split : (indexOf register byte).toBitVec =
      (register.toBitVec ^^^ byte.toBitVec.setWidth 32) &&& 0xff#32 := rfl
  rw [split, BitVec.getLsbD_and, mask, BitVec.getLsbD_xor, BitVec.getLsbD_setWidth]
  by_cases low : place < 8
  · have inside : place < 32 := by omega
    simp [low, inside]
  · simp [low]

/-- A step of the table is eight steps of a bit. The register is the index and a rest whose
lowest bits are those of the byte, so that entering the byte shifts the rest out. -/
theorem absorb_eq (register : UInt32) (byte : UInt8) :
    (absorb register byte).toBitVec = (bitsOf byte).foldl enterBit register.toBitVec := by
  let index := indexOf register byte
  let rest := index.toBitVec ^^^ register.toBitVec
  have parts : register.toBitVec = index.toBitVec ^^^ rest := by
    rw [← BitVec.xor_assoc, BitVec.xor_self, BitVec.zero_xor]
  have own : bitsOf byte = (List.range 8).map rest.getLsbD := by
    apply List.map_congr_left
    intro place inside
    rw [BitVec.getLsbD_xor, index_bit, if_pos (List.mem_range.mp inside), Bool.xor_right_comm,
      Bool.xor_self, Bool.false_xor]
  have high : rest >>> 8 = register.toBitVec >>> 8 := by
    apply BitVec.eq_of_getLsbD_eq
    intro place inside
    rw [BitVec.getLsbD_ushiftRight, BitVec.getLsbD_ushiftRight, BitVec.getLsbD_xor, index_bit,
      if_neg (by omega), Bool.false_xor]
  have table : (absorb register byte).toBitVec =
      (shiftByte index).toBitVec ^^^ (register.toBitVec >>> 8) := by
    rw [← table_entry (index_lt register byte)]
    rfl
  calc (absorb register byte).toBitVec
      = (List.replicate 8 false).foldl enterBit index.toBitVec ^^^ (rest >>> 8) := by
        rw [table, shift_byte_eq, high]
    _ = (bitsOf byte).foldl enterBit (index.toBitVec ^^^ rest) := by
        rw [own, enter_bits_xor, enter_own_bits, List.length_map, List.length_range]
    _ = (bitsOf byte).foldl enterBit register.toBitVec := by rw [← parts]

theorem value_update_initial (bytes : Bytes) :
    (initial.update bytes).value.toBitVec = bitSerial bytes := by
  have entered : ∀ register : UInt32, (bytes.foldl absorb register).toBitVec =
      (bytes.flatMap bitsOf).foldl enterBit register.toBitVec := by
    induction bytes with
    | nil =>
        intro register
        rfl
    | cons byte bytes ih =>
        intro register
        rw [List.foldl_cons, ih, absorb_eq, List.flatMap_cons, List.foldl_append]
  have complement : (initial.update bytes).value.toBitVec =
      (bytes.foldl absorb 0xffffffff).toBitVec ^^^ BitVec.allOnes 32 := rfl
  rw [complement, entered, BitVec.xor_allOnes]
  rfl

end ArchiveBrowser.Digest.Crc32
