/-!
# Rounding up to a power of two

The least power of two at or above a machine word, at any word width. Zero stays
zero, and a word above the largest power of two that fits also gives zero.
-/

set_option autoImplicit false

namespace ArchiveBrowser.PowerOfTwo

variable {width : Nat}

/-- One less than the least power of two at or above `word`: ones from the highest one of the
predecessor down. -/
def onesBelow (word : BitVec width) : BitVec width :=
  if word ≤ 1 then 0 else BitVec.allOnes width >>> (word - 1).clz

/-- The least power of two at or above `word`, unless it is too large for a word. -/
def atOrAbove? (word : BitVec width) : Option (BitVec width) :=
  if onesBelow word = BitVec.allOnes width then none else some (onesBelow word + 1)

/-- The least power of two at or above `word`, or zero if there is none or `word` is zero. -/
def roundUp (word : BitVec width) : BitVec width :=
  if word = 0 then 0 else (atOrAbove? word).getD 0

end ArchiveBrowser.PowerOfTwo
