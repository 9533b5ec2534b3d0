import ArchiveBrowser.Numeric.PowerOfTwo
import Mathlib.Data.BitVec

/-!
# Rounding up gives the least power of two

Shifting ones to the right by the leading zeros of the predecessor leaves one less than a power
of two between the word and its double, at every width. `exists_ones_below` is the only statement
about bits. The power does not fit into a word just where the word is above half the range, and
there rounding gives zero. Everything else follows from the two bounds.
-/

set_option autoImplicit false

namespace ArchiveBrowser.PowerOfTwo

variable {width : Nat} {word : BitVec width}

theorem word_pos (nonzero : word ≠ 0) : 0 < word.toNat := by
  apply Nat.pos_of_ne_zero
  intro zero
  exact nonzero (BitVec.eq_of_toNat_eq zero)

theorem width_pos (nonzero : word ≠ 0) : 0 < width := by
  apply Nat.pos_of_ne_zero
  rintro rfl
  exact nonzero (Subsingleton.elim word 0)

theorem zero_value : (0 : BitVec width).toNat = 0 := BitVec.toNat_zero

theorem one_value (nonzero : word ≠ 0) : (1 : BitVec width).toNat = 1 :=
  Nat.mod_eq_of_lt (Nat.one_lt_two_pow (width_pos nonzero).ne')

theorem le_one_iff (nonzero : word ≠ 0) : word ≤ 1 ↔ word.toNat = 1 := by
  have positive := word_pos nonzero
  rw [BitVec.le_def, one_value nonzero]
  omega

theorem predecessor_value (nonzero : word ≠ 0) : (word - 1).toNat = word.toNat - 1 := by
  have one := one_value nonzero
  have below : (1 : BitVec width) ≤ word := by
    rw [BitVec.le_def, one]
    exact word_pos nonzero
  rw [BitVec.toNat_sub_of_le below, one]

theorem shifted_ones_value {zeros : Nat} (inside : zeros ≤ width) :
    (BitVec.allOnes width >>> zeros).toNat + 1 = 2 ^ (width - zeros) := by
  have parts : 2 ^ width = 2 ^ zeros * 2 ^ (width - zeros) := by
    rw [← pow_add, Nat.add_sub_cancel' inside]
  have positive : 0 < 2 ^ zeros * 2 ^ (width - zeros) := by
    rw [← parts]
    exact Nat.two_pow_pos width
  have shifted := Nat.mul_sub_div 0 (2 ^ zeros) (2 ^ (width - zeros)) positive
  have more := Nat.two_pow_pos (width - zeros)
  rw [BitVec.toNat_ushiftRight, BitVec.toNat_allOnes, Nat.shiftRight_eq_div_pow, parts, shifted,
    Nat.zero_div]
  omega

/-- One more than the ones is a power of two, at least the word and less than its double. -/
theorem exists_ones_below (nonzero : word ≠ 0) :
    ∃ exponent ≤ width, (onesBelow word).toNat + 1 = 2 ^ exponent ∧
      word.toNat ≤ 2 ^ exponent ∧ 2 ^ exponent < 2 * word.toNat := by
  have positive := word_pos nonzero
  unfold onesBelow
  split
  · rename_i least
    rw [le_one_iff nonzero] at least
    exact ⟨0, Nat.zero_le width, rfl, by omega, by omega⟩
  · rename_i large
    rw [le_one_iff nonzero] at large
    have value := predecessor_value nonzero
    have rest : word - 1 ≠ 0 := by
      intro zero
      rw [zero, zero_value] at value
      omega
    -- The predecessor has its highest one just behind its leading zeros.
    have above := BitVec.toNat_lt_two_pow_sub_clz (x := word - 1)
    have below := BitVec.two_pow_sub_clz_le_toNat_of_ne_zero (width_pos nonzero) rest
    have zeros : (word - 1).clz.toNat < width := by
      by_contra many
      rw [Nat.sub_eq_zero_of_le (Nat.le_of_not_lt many)] at above
      omega
    have double : 2 ^ (width - (word - 1).clz.toNat) =
        2 * 2 ^ (width - 1 - (word - 1).clz.toNat) := by
      rw [← pow_succ']
      congr 1
      omega
    rw [value] at above below
    refine ⟨width - (word - 1).clz.toNat, Nat.sub_le _ _, ?_, by omega, by omega⟩
    rw [BitVec.ushiftRight_eq']
    exact shifted_ones_value zeros.le

/-- The power is too large for a word just where the word is above half the range. -/
theorem at_or_above_cases (nonzero : word ≠ 0) :
    (2 ^ (width - 1) < word.toNat ∧ atOrAbove? word = none) ∨
      word.toNat ≤ 2 ^ (width - 1) ∧ ∃ power, atOrAbove? word = some power ∧
        power.toNat.isPowerOfTwo ∧ word ≤ power ∧ power.toNat < 2 * word.toNat := by
  obtain ⟨exponent, within, value, above, below⟩ := exists_ones_below nonzero
  have positive := width_pos nonzero
  have half : 2 ^ width = 2 * 2 ^ (width - 1) := by
    rw [← pow_succ', Nat.sub_add_cancel positive]
  have full : onesBelow word = BitVec.allOnes width ↔ exponent = width := by
    have large := Nat.two_pow_pos width
    have same : 2 ^ exponent = 2 ^ width ↔ exponent = width := Nat.pow_right_inj (Nat.le_refl 2)
    rw [← same, ← BitVec.toNat_inj, BitVec.toNat_allOnes]
    omega
  rcases within.eq_or_lt with rfl | inside
  · left
    refine ⟨by omega, ?_⟩
    rw [atOrAbove?, if_pos (full.mpr rfl)]
  · right
    have small : 2 ^ exponent ≤ 2 ^ (width - 1) :=
      Nat.pow_le_pow_right Nat.two_pos (Nat.le_sub_one_of_lt inside)
    have next : (onesBelow word + 1).toNat = 2 ^ exponent := by
      rw [BitVec.toNat_add, one_value nonzero, value]
      exact Nat.mod_eq_of_lt (Nat.pow_lt_pow_right Nat.one_lt_two inside)
    refine ⟨by omega, onesBelow word + 1, ?_, ⟨exponent, next⟩, ?_, ?_⟩
    · rw [atOrAbove?, if_neg (mt full.mp inside.ne)]
    · rw [BitVec.le_def, next]
      exact above
    · rw [next]
      exact below

@[simp] theorem round_up_zero : roundUp (0 : BitVec width) = 0 := if_pos rfl

theorem round_up_of_large (large : 2 ^ (width - 1) < word.toNat) : roundUp word = 0 := by
  by_cases zero : word = 0
  · rw [zero, round_up_zero]
  · rcases at_or_above_cases zero with ⟨-, none⟩ | ⟨small, -⟩
    · rw [roundUp, if_neg zero, none, Option.getD_none]
    · exact absurd large (Nat.not_lt.mpr small)

theorem round_up_of_small (nonzero : word ≠ 0) (small : word.toNat ≤ 2 ^ (width - 1)) :
    (roundUp word).toNat.isPowerOfTwo ∧ word ≤ roundUp word ∧
      (roundUp word).toNat < 2 * word.toNat := by
  rcases at_or_above_cases nonzero with ⟨large, -⟩ | ⟨-, power, found, bounds⟩
  · exact absurd large (Nat.not_lt.mpr small)
  · rw [roundUp, if_neg nonzero, found, Option.getD_some]
    exact bounds

theorem round_up_zero_or_power (word : BitVec width) :
    roundUp word = 0 ∨ (roundUp word).toNat.isPowerOfTwo := by
  by_cases zero : word = 0
  · left
    rw [zero, round_up_zero]
  · rcases Nat.lt_or_ge (2 ^ (width - 1)) word.toNat with large | small
    · exact .inl (round_up_of_large large)
    · exact .inr (round_up_of_small zero small).1

theorem round_up_eq_zero : roundUp word = 0 ↔ word = 0 ∨ 2 ^ (width - 1) < word.toNat := by
  constructor
  · intro rounded
    by_contra other
    obtain ⟨nonzero, small⟩ := not_or.mp other
    obtain ⟨power, -⟩ := round_up_of_small nonzero (Nat.le_of_not_lt small)
    rw [rounded, zero_value] at power
    exact Nat.not_isPowerOfTwo_zero power
  · rintro (rfl | large)
    · exact round_up_zero
    · exact round_up_of_large large

/-- A power of two that fits into a word is not above half the range. -/
theorem power_le_half (power : word.toNat.isPowerOfTwo) : word.toNat ≤ 2 ^ (width - 1) := by
  obtain ⟨exponent, value⟩ := power
  have inside := word.isLt
  rw [value] at inside ⊢
  have smaller := (Nat.pow_lt_pow_iff_right Nat.one_lt_two).mp inside
  exact Nat.pow_le_pow_right Nat.two_pos (Nat.le_sub_one_of_lt smaller)

/-- Less than double is less than the next power of two. -/
theorem power_le_of_lt_double {least power : Nat} (isLeast : least.isPowerOfTwo)
    (isPower : power.isPowerOfTwo) (below : least < 2 * power) : least ≤ power := by
  obtain ⟨low, rfl⟩ := isLeast
  obtain ⟨high, rfl⟩ := isPower
  rw [← pow_succ', Nat.pow_lt_pow_iff_right Nat.one_lt_two] at below
  exact Nat.pow_le_pow_right Nat.two_pos (Nat.le_of_lt_succ below)

/-- No power of two from the word on is smaller. -/
theorem round_up_le {power : BitVec width} (isPower : power.toNat.isPowerOfTwo)
    (above : word ≤ power) : roundUp word ≤ power := by
  rcases round_up_zero_or_power word with zero | rounded
  · rw [zero, BitVec.le_def, zero_value]
    exact Nat.zero_le _
  · have nonzero : word ≠ 0 := by
      rintro rfl
      rw [round_up_zero, zero_value] at rounded
      exact Nat.not_isPowerOfTwo_zero rounded
    rw [BitVec.le_def] at above ⊢
    obtain ⟨-, -, below⟩ := round_up_of_small nonzero (above.trans (power_le_half isPower))
    exact power_le_of_lt_double rounded isPower (by omega)

theorem round_up_eq_self : roundUp word = word ↔ word = 0 ∨ word.toNat.isPowerOfTwo := by
  constructor
  · intro fixed
    have rounded := round_up_zero_or_power word
    rwa [fixed] at rounded
  · rintro (rfl | power)
    · exact round_up_zero
    · have nonzero : word ≠ 0 := by
        rintro rfl
        exact Nat.not_isPowerOfTwo_zero power
      obtain ⟨-, above, -⟩ := round_up_of_small nonzero (power_le_half power)
      exact BitVec.le_antisymm (round_up_le power (BitVec.le_refl word)) above

theorem round_up_mono {larger : BitVec width} (ordered : word ≤ larger)
    (small : larger.toNat ≤ 2 ^ (width - 1)) : roundUp word ≤ roundUp larger := by
  by_cases zero : larger = 0
  · rw [zero] at ordered ⊢
    rw [BitVec.le_zero_iff.mp ordered]
    exact BitVec.le_refl _
  · obtain ⟨power, above, -⟩ := round_up_of_small zero small
    exact round_up_le power (BitVec.le_trans ordered above)

/-- Zero and the words above half the range are rounded to zero, and every other word to a power
of two from the word up to less than its double, which no power of two that fits undercuts.
Rounding therefore fixes zero and the powers of two alone, changes nothing a second time, and keeps
the order of the words up to half the range. -/
theorem rounds_up_to_least_power (word : BitVec width) :
    (roundUp word = 0 ↔ word = 0 ∨ 2 ^ (width - 1) < word.toNat) ∧
      (word ≠ 0 → word.toNat ≤ 2 ^ (width - 1) →
        (roundUp word).toNat.isPowerOfTwo ∧ word ≤ roundUp word ∧
          (roundUp word).toNat < 2 * word.toNat) ∧
      (roundUp word = 0 ∨ (roundUp word).toNat.isPowerOfTwo) ∧
      (∀ power : BitVec width, power.toNat.isPowerOfTwo → word ≤ power → roundUp word ≤ power) ∧
      roundUp (roundUp word) = roundUp word ∧
      (roundUp word = word ↔ word = 0 ∨ word.toNat.isPowerOfTwo) ∧
      ∀ larger : BitVec width, word ≤ larger → larger.toNat ≤ 2 ^ (width - 1) →
        roundUp word ≤ roundUp larger := by
  refine ⟨round_up_eq_zero, round_up_of_small, round_up_zero_or_power word, ?_, ?_,
    round_up_eq_self, ?_⟩
  · intro power isPower above
    exact round_up_le isPower above
  · exact round_up_eq_self.mpr (round_up_zero_or_power word)
  · intro larger ordered small
    exact round_up_mono ordered small

theorem sample_words_rounded :
    ((5 : BitVec 8) ≠ 0 ∧ (5 : BitVec 8).toNat ≤ 2 ^ (8 - 1) ∧
      (roundUp (5 : BitVec 8)).toNat.isPowerOfTwo ∧ (5 : BitVec 8) ≤ roundUp 5 ∧
      (roundUp (5 : BitVec 8)).toNat < 2 * (5 : BitVec 8).toNat) ∧
    ((8 : BitVec 8).toNat.isPowerOfTwo ∧ roundUp (5 : BitVec 8) ≤ 8) ∧
    ((5 : BitVec 8) ≤ 128 ∧ roundUp (5 : BitVec 8) ≤ roundUp 128) ∧
    2 ^ (8 - 1) < (129 : BitVec 8).toNat ∧ roundUp (129 : BitVec 8) = 0 := by
  obtain ⟨-, bounds, -, least, -, -, ordered⟩ := rounds_up_to_least_power (5 : BitVec 8)
  obtain ⟨zero, -⟩ := rounds_up_to_least_power (129 : BitVec 8)
  have nonzero : (5 : BitVec 8) ≠ 0 := by decide
  have small : (5 : BitVec 8).toNat ≤ 2 ^ (8 - 1) := by decide
  have power : (8 : BitVec 8).toNat.isPowerOfTwo := ⟨3, rfl⟩
  have larger : (5 : BitVec 8) ≤ 128 := by decide
  have large : 2 ^ (8 - 1) < (129 : BitVec 8).toNat := by decide
  exact ⟨⟨nonzero, small, bounds nonzero small⟩, ⟨power, least 8 power (by decide)⟩,
    ⟨larger, ordered 128 larger (by decide)⟩, large, zero.mpr (.inr large)⟩

end ArchiveBrowser.PowerOfTwo
