import ArchiveBrowser.Bytes
import ArchiveBrowser.Fault

/-!
# CRC-32

The checksum of ISO 3309 with the reflected polynomial `0xedb88320`: a 32-bit
register of ones, each byte entered least significant bit first, and the
complement at the end. The register is advanced a byte at a time through a table;
`shiftBit` is the bit-at-a-time rule from which the table is made.
-/

set_option autoImplicit false

namespace ArchiveBrowser.Digest

structure Crc32 where
  register : UInt32
  deriving DecidableEq

namespace Crc32

def polynomial : UInt32 := 0xedb88320

def initial : Crc32 := ⟨0xffffffff⟩

/-- Divides by one bit: the lowest bit leaves, and the polynomial is added if it was set. -/
def shiftBit (register : UInt32) : UInt32 :=
  if register &&& 1 = 0 then register >>> 1 else (register >>> 1) ^^^ polynomial

def shiftByte (register : UInt32) : UInt32 :=
  Nat.repeat shiftBit 8 register

def table : Array UInt32 :=
  Array.ofFn fun index : Fin 256 => shiftByte (UInt32.ofNat index.val)

def absorb (register : UInt32) (byte : UInt8) : UInt32 :=
  table.getD ((register ^^^ byte.toUInt32) &&& 0xff).toNat 0 ^^^ (register >>> 8)

def update (crc : Crc32) (bytes : Bytes) : Crc32 :=
  ⟨bytes.foldl absorb crc.register⟩

def reset (_ : Crc32) : Crc32 :=
  initial

/-- Takes in the bytes as an output would, and tells how many of them it took. -/
def write (crc : Crc32) (bytes : Bytes) : Except Fault Nat × Crc32 :=
  (.ok bytes.length, crc.update bytes)

def value (crc : Crc32) : UInt32 :=
  crc.register ^^^ 0xffffffff

def compute (bytes : Bytes) : UInt32 :=
  (initial.update bytes).value

def result (crc : Crc32) : Bytes :=
  Bytes.ofNatBigEndian 4 crc.value.toNat

theorem update_append (crc : Crc32) (before after : Bytes) :
    crc.update (before ++ after) = (crc.update before).update after := by
  simp [update, List.foldl_append]

@[simp] theorem update_nil (crc : Crc32) : crc.update [] = crc := rfl

end Crc32

end ArchiveBrowser.Digest
