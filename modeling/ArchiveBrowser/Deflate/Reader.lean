import ArchiveBrowser.Bytes

/-!
# Reading bits

A deflate stream is a sequence of bits, least significant bit of each byte first. A
`Reader` takes a value from the front of a sequence; by its type it never gives
back more bits than it was given, which is what makes the loops over it end.
-/

set_option autoImplicit false

namespace ArchiveBrowser.Deflate

inductive Flaw where
  | truncated
  | invalid
  deriving DecidableEq

abbrev Bits := List Bool

def Bits.ofBytes (bytes : Bytes) : Bits :=
  bytes.flatMap fun byte => (List.range 8).map byte.toNat.testBit

structure Reader (α : Type) where
  run : (bits : Bits) → Except Flaw { read : α × Bits // read.2.length ≤ bits.length }

namespace Reader

variable {α β : Type}

protected def pure (value : α) : Reader α where
  run bits := .ok ⟨(value, bits), Nat.le_refl _⟩

protected def bind (first : Reader α) (next : α → Reader β) : Reader β where
  run bits :=
    match first.run bits with
    | .error flaw => .error flaw
    | .ok ⟨(value, rest), shorter⟩ =>
      match (next value).run rest with
      | .error flaw => .error flaw
      | .ok ⟨read, shorterStill⟩ => .ok ⟨read, Nat.le_trans shorterStill shorter⟩

instance : Monad Reader where
  pure := Reader.pure
  bind := Reader.bind

def fail (flaw : Flaw) : Reader α where
  run _ := .error flaw

def bit : Reader Bool where
  run
    | [] => .error .truncated
    | first :: rest => .ok ⟨(first, rest), Nat.le_succ _⟩

/-- A number of `width` bits, the least significant first. -/
def number : (width : Nat) → Reader Nat
  | 0 => pure 0
  | width + 1 => do
    let low ← bit
    let high ← number width
    pure (low.toNat + 2 * high)

def alignToByte : Reader Unit where
  run bits := .ok ⟨((), bits.drop (bits.length % 8)), by simp⟩

def take (count : Nat) : Reader Bits where
  run bits :=
    if bits.length < count then .error .truncated
    else .ok ⟨(bits.take count, bits.drop count), by simp⟩

def list (reader : Reader α) : (count : Nat) → Reader (List α)
  | 0 => pure []
  | count + 1 => do
    let first ← reader
    let rest ← list reader count
    pure (first :: rest)

end Reader

end ArchiveBrowser.Deflate
