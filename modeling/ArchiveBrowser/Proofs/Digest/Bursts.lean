import ArchiveBrowser.Proofs.Digest.BitSerial

/-!
# Bursts of errors

Bits of a message that lie close together cannot change without a change of its checksum. What two
messages differ in is entered into a register of zeros: the zeros before the first difference
leave it alone, a window of at most 32 bits can be undone from what it leaves, and the zeros
behind it never bring a register that is not zero back to zero.
-/

set_option autoImplicit false

namespace ArchiveBrowser.Digest.Crc32

/-- The bit of a message at a place. Bits are counted byte by byte, and in each byte from the least
significant one. -/
def bit? (bytes : Bytes) (place : Nat) : Option Bool :=
  bytes[place / 8]?.map fun byte => byte.toBitVec.getLsbD (place % 8)

theorem bits_at (bytes : Bytes) (place : Nat) :
    (bytes.flatMap bitsOf)[place]? = bit? bytes place := by
  induction bytes generalizing place with
  | nil => rfl
  | cons byte bytes ih =>
      have width : (bitsOf byte).length = 8 := rfl
      rw [List.flatMap_cons, List.getElem?_append, width]
      by_cases inside : place < 8
      · have first : place / 8 = 0 := by omega
        have own : place % 8 = place := by omega
        rw [if_pos inside, bit?, first, own]
        simp [bitsOf, inside]
      · have later : place / 8 = (place - 8) / 8 + 1 := by omega
        have same : place % 8 = (place - 8) % 8 := by omega
        rw [if_neg inside, ih, bit?, bit?, later, same, List.getElem?_cons_succ]

theorem bits_length (bytes : Bytes) : (bytes.flatMap bitsOf).length = 8 * bytes.length := by
  induction bytes with
  | nil => rfl
  | cons byte bytes ih =>
      have width : (bitsOf byte).length = 8 := rfl
      rw [List.flatMap_cons, List.length_append, ih, width, List.length_cons]
      omega

theorem eq_of_bits {first second : Bytes} (same : ∀ place, bit? first place = bit? second place) :
    first = second := by
  apply List.ext_getElem?
  intro index
  have known : ∀ bit < 8, first[index]?.map (fun byte => byte.toBitVec.getLsbD bit) =
      second[index]?.map (fun byte => byte.toBitVec.getLsbD bit) := by
    intro bit inside
    have here := same (8 * index + bit)
    have quotient : (8 * index + bit) / 8 = index := by omega
    have remainder : (8 * index + bit) % 8 = bit := by omega
    rwa [bit?, bit?, quotient, remainder] at here
  cases found : first[index]? with
  | none =>
      have lowest := known 0 (by omega)
      rw [found, Option.map_none, eq_comm, Option.map_eq_none_iff] at lowest
      exact lowest.symm
  | some byte =>
      cases other : second[index]? with
      | none =>
          have lowest := known 0 (by omega)
          rw [found, other] at lowest
          cases lowest
      | some another =>
          congr 1
          apply UInt8.toBitVec_inj.mp
          apply BitVec.eq_of_getLsbD_eq
          intro bit inside
          have here := known bit inside
          rw [found, other] at here
          exact Option.some.inj here

/-! ## What a register of zeros becomes -/

theorem enter_zero_eq_zero {register : BitVec 32} (zero : enterBit register false = 0#32) :
    register = 0#32 := by
  unfold enterBit at zero
  rw [Bool.xor_false, BitVec.xor_eq_zero_iff] at zero
  -- The polynomial has its highest bit set, and what is shifted to the right has not.
  have lowest : register.getLsbD 0 = false := by
    cases set : register.getLsbD 0 with
    | false => rfl
    | true =>
        have highest := congrArg (BitVec.getLsbD · 31) zero
        rw [set] at highest
        simp [feedback] at highest
  rw [lowest] at zero
  apply BitVec.eq_of_getLsbD_eq
  intro place inside
  cases place with
  | zero => rw [lowest, BitVec.getLsbD_zero]
  | succ place =>
      have shifted := congrArg (BitVec.getLsbD · place) zero
      simpa [feedback, Nat.add_comm] using shifted

theorem enter_zeros_eq_zero {count : Nat} {register : BitVec 32}
    (zero : (List.replicate count false).foldl enterBit register = 0#32) : register = 0#32 := by
  induction count generalizing register with
  | zero => exact zero
  | succ count ih => exact enter_zero_eq_zero (ih zero)

theorem enter_zeros_zero (count : Nat) :
    (List.replicate count false).foldl enterBit 0#32 = 0#32 := by
  induction count with
  | zero => rfl
  | succ count ih => exact ih

/-- The word whose lowest bits are those of the window. -/
def wordOf (window : List Bool) : BitVec 32 :=
  (BitVec.ofBoolListLE window).setWidth 32

theorem word_bit (window : List Bool) {place : Nat} (inside : place < 32) :
    (wordOf window).getLsbD place = window.getD place false := by
  simp [wordOf, inside, BitVec.getLsbD_ofBoolListLE]

theorem word_own_bits {window : List Bool} (narrow : window.length ≤ 32) :
    (List.range window.length).map (wordOf window).getLsbD = window := by
  apply List.ext_getElem
  · simp
  · intro place inside there
    have low : place < 32 := by omega
    simp [word_bit window low, there]

theorem word_shifted_out (window : List Bool) : wordOf window >>> window.length = 0#32 := by
  apply BitVec.eq_of_getLsbD_eq
  intro place inside
  rw [BitVec.getLsbD_ushiftRight, BitVec.getLsbD_zero]
  by_cases low : window.length + place < 32
  · rw [word_bit window low]
    simp
  · exact BitVec.getLsbD_of_ge (wordOf window) _ (by omega)

/-- A window of the width of the register cannot cancel itself out. The word that is made of the
window is shifted out by it, so that only zeros behind the word are left. -/
theorem enter_window {window : List Bool} (narrow : window.length ≤ 32)
    (zero : window.foldl enterBit 0#32 = 0#32) : window = List.replicate window.length false := by
  have own := word_own_bits narrow
  have left := enter_own_bits (wordOf window) window.length
  have linear := enter_bits_xor window (wordOf window) (wordOf window)
  rw [own, word_shifted_out] at left
  rw [BitVec.xor_self, zero, left, BitVec.xor_zero] at linear
  have nothing := enter_zeros_eq_zero linear.symm
  rw [List.eq_replicate_iff]
  refine ⟨rfl, ?_⟩
  intro bit member
  rw [← own, nothing] at member
  obtain ⟨place, inside, rfl⟩ := List.mem_map.mp member
  exact BitVec.getLsbD_zero

theorem zeros_of_no_bit {bits : List Bool} (clear : ∀ place : Nat, bits[place]? ≠ some true) :
    bits = List.replicate bits.length false := by
  rw [List.eq_replicate_iff]
  refine ⟨rfl, ?_⟩
  intro bit member
  obtain ⟨place, found⟩ := List.getElem?_of_mem member
  cases bit with
  | false => rfl
  | true => exact absurd found (clear place)

/-- Bits that are all zero outside a window leave a mark on a register of zeros, unless they are
all zero. -/
theorem enter_burst {bits : List Bool} {start : Nat}
    (within : ∀ place : Nat, bits[place]? = some true → start ≤ place ∧ place < start + 32)
    (zero : bits.foldl enterBit 0#32 = 0#32) : true ∉ bits := by
  have parts : bits = bits.take start ++
      ((bits.drop start).take 32 ++ (bits.drop start).drop 32) := by
    rw [List.take_append_drop, List.take_append_drop]
  have clearBefore : ∀ place : Nat, (bits.take start)[place]? ≠ some true := by
    intro place set
    rw [List.getElem?_take] at set
    split at set
    · have late := (within place set).1
      omega
    · cases set
  have clearBehind : ∀ place : Nat, ((bits.drop start).drop 32)[place]? ≠ some true := by
    intro place set
    rw [List.drop_drop, List.getElem?_drop] at set
    have early := (within _ set).2
    omega
  have before := zeros_of_no_bit clearBefore
  have behind := zeros_of_no_bit clearBehind
  have entered := zero
  rw [parts, before, behind, List.foldl_append, enter_zeros_zero, List.foldl_append] at entered
  have window := enter_window (List.length_take_le 32 _) (enter_zeros_eq_zero entered)
  rw [parts, before, behind, window]
  simp

/-! ## Two messages -/

theorem difference_at {first second : Bytes} (sameLength : first.length = second.length)
    (place : Nat) :
    (List.zipWith (· ^^ ·) (first.flatMap bitsOf) (second.flatMap bitsOf))[place]? = some true ↔
      bit? first place ≠ bit? second place := by
  rw [List.getElem?_zipWith_eq_some, ← bits_at, ← bits_at]
  constructor
  · intro differ
    obtain ⟨bit, other, found, otherFound, unequal⟩ := differ
    rw [found, otherFound]
    intro same
    rw [Option.some.inj same, Bool.xor_self] at unequal
    cases unequal
  · intro differ
    have widths : (first.flatMap bitsOf).length = (second.flatMap bitsOf).length := by
      rw [bits_length, bits_length, sameLength]
    by_cases inside : place < (first.flatMap bitsOf).length
    · have insideOther : place < (second.flatMap bitsOf).length := by omega
      refine ⟨_, _, List.getElem?_eq_getElem inside, List.getElem?_eq_getElem insideOther, ?_⟩
      rw [List.getElem?_eq_getElem inside, List.getElem?_eq_getElem insideOther] at differ
      apply bne_iff_ne.mpr
      intro same
      exact differ (congrArg some same)
    · rw [List.getElem?_eq_none (by omega), List.getElem?_eq_none (by omega)] at differ
      exact absurd rfl differ

/-- Messages of one length whose differences lie within 32 consecutive bits have different
checksums. -/
theorem burst_changes_checksum {first second : Bytes} (sameLength : first.length = second.length)
    (different : first ≠ second) (start : Nat)
    (within : ∀ place, bit? first place ≠ bit? second place →
      start ≤ place ∧ place < start + 32) :
    compute first ≠ compute second := by
  intro same
  have registers : (first.flatMap bitsOf).foldl enterBit (BitVec.allOnes 32) =
      (second.flatMap bitsOf).foldl enterBit (BitVec.allOnes 32) := by
    have serial : bitSerial first = bitSerial second := by
      rw [← value_update_initial, ← value_update_initial]
      exact congrArg UInt32.toBitVec same
    exact BitVec.not_inj.mp serial
  have widths : (first.flatMap bitsOf).length = (second.flatMap bitsOf).length := by
    rw [bits_length, bits_length, sameLength]
  have linear := enter_differences widths (BitVec.allOnes 32) (BitVec.allOnes 32)
  rw [registers, BitVec.xor_self, BitVec.xor_self] at linear
  have clear := enter_burst
    (fun place set => within place ((difference_at sameLength place).mp set)) linear
  apply different
  apply eq_of_bits
  intro place
  apply Decidable.byContradiction
  intro differ
  exact clear (List.mem_of_getElem? ((difference_at sameLength place).mpr differ))

namespace SampleBurst

def sent : Bytes := [0x31, 0x32, 0x33, 0x34, 0x35, 0x36]

/-- What has changed begins in the middle of the first byte and ends in that of the fifth. -/
def arrived : Bytes := [0xe1, 0x00, 0x33, 0xff, 0x3a, 0x36]

end SampleBurst

open SampleBurst in
theorem sample_burst_noticed :
    sent.length = arrived.length ∧ sent ≠ arrived ∧
      (∀ place, bit? sent place ≠ bit? arrived place → 4 ≤ place ∧ place < 4 + 32) ∧
      compute sent ≠ compute arrived := by
  have within : ∀ place, bit? sent place ≠ bit? arrived place → 4 ≤ place ∧ place < 4 + 32 := by
    intro place differ
    by_cases inside : place < 48
    · have checked : ∀ place < 48, bit? sent place ≠ bit? arrived place →
          4 ≤ place ∧ place < 4 + 32 := by decide
      exact checked place inside differ
    · have outside : ∀ bytes : Bytes, bytes.length = 6 → bit? bytes place = none := by
        intro bytes six
        rw [bit?, List.getElem?_eq_none (by omega), Option.map_none]
      rw [outside sent rfl, outside arrived rfl] at differ
      exact absurd rfl differ
  exact ⟨rfl, by decide, within, burst_changes_checksum rfl (by decide) 4 within⟩

/-- In 33 bits there is room for the polynomial with its leading term, which leaves no mark. -/
example : bitSerial [0x41, 0x06, 0x71, 0xdb, 0x01] = bitSerial [0, 0, 0, 0, 0] := by cbv

end ArchiveBrowser.Digest.Crc32
