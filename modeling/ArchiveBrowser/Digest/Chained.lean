import ArchiveBrowser.Bytes

/-!
# Digests that chain a compression function

MD5 and SHA-256 have one shape. A chaining value is compressed with each block of
64 bytes; the message is closed by a byte `0x80`, zeros up to 8 bytes before the
end of a block, and its length in bits. They differ in the chaining value, the
compression and the byte order, which a `Scheme` records.

Bytes are taken one at a time, so that feeding a message in pieces is feeding it
whole.
-/

set_option autoImplicit false

namespace ArchiveBrowser.Digest

structure Scheme (Chain : Type) where
  initial : Chain
  compress : Chain → Bytes → Chain
  lengthField : Nat → Bytes
  output : Chain → Bytes

structure Hasher (Chain : Type) where
  chain : Chain
  /-- The bytes of the block under way, latest first. -/
  pending : Bytes
  count : Nat

namespace Scheme

variable {Chain : Type}

def start (scheme : Scheme Chain) : Hasher Chain :=
  { chain := scheme.initial, pending := [], count := 0 }

def absorb (scheme : Scheme Chain) (hasher : Hasher Chain) (byte : UInt8) : Hasher Chain :=
  if hasher.count % 64 = 63 then
    { chain := scheme.compress hasher.chain (byte :: hasher.pending).reverse
      pending := []
      count := hasher.count + 1 }
  else
    { hasher with
      pending := byte :: hasher.pending
      count := hasher.count + 1 }

def update (scheme : Scheme Chain) (hasher : Hasher Chain) (bytes : Bytes) : Hasher Chain :=
  bytes.foldl scheme.absorb hasher

/-- The bytes that close a message of `count` bytes: their number brings `count` to
a multiple of 64. -/
def closing (scheme : Scheme Chain) (count : Nat) : Bytes :=
  0x80 :: (List.replicate ((119 - count % 64) % 64) 0 ++ scheme.lengthField (8 * count))

def finish (scheme : Scheme Chain) (hasher : Hasher Chain) : Bytes :=
  scheme.output (scheme.update hasher (scheme.closing hasher.count)).chain

def compute (scheme : Scheme Chain) (bytes : Bytes) : Bytes :=
  scheme.finish (scheme.update scheme.start bytes)

theorem update_append (scheme : Scheme Chain) (hasher : Hasher Chain) (before after : Bytes) :
    scheme.update hasher (before ++ after) = scheme.update (scheme.update hasher before) after := by
  simp [update, List.foldl_append]

@[simp] theorem update_nil (scheme : Scheme Chain) (hasher : Hasher Chain) :
    scheme.update hasher [] = hasher := rfl

end Scheme

end ArchiveBrowser.Digest
