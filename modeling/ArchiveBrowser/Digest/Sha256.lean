import ArchiveBrowser.Digest.Chained

/-!
# SHA-256

The chained digest of FIPS 180-4: eight words, sixty-four schedule words per
block in big-endian order, and sixty-four steps.
-/

set_option autoImplicit false

namespace ArchiveBrowser.Digest.Sha256

structure State where
  a : UInt32
  b : UInt32
  c : UInt32
  d : UInt32
  e : UInt32
  f : UInt32
  g : UInt32
  h : UInt32

/-- The first 32 bits of the fractional parts of the cube roots of the first 64 primes. -/
def roots : Array UInt32 :=
  #[0x428a2f98, 0x71374491, 0xb5c0fbcf, 0xe9b5dba5, 0x3956c25b, 0x59f111f1, 0x923f82a4, 0xab1c5ed5,
    0xd807aa98, 0x12835b01, 0x243185be, 0x550c7dc3, 0x72be5d74, 0x80deb1fe, 0x9bdc06a7, 0xc19bf174,
    0xe49b69c1, 0xefbe4786, 0x0fc19dc6, 0x240ca1cc, 0x2de92c6f, 0x4a7484aa, 0x5cb0a9dc, 0x76f988da,
    0x983e5152, 0xa831c66d, 0xb00327c8, 0xbf597fc7, 0xc6e00bf3, 0xd5a79147, 0x06ca6351, 0x14292967,
    0x27b70a85, 0x2e1b2138, 0x4d2c6dfc, 0x53380d13, 0x650a7354, 0x766a0abb, 0x81c2c92e, 0x92722c85,
    0xa2bfe8a1, 0xa81a664b, 0xc24b8b70, 0xc76c51a3, 0xd192e819, 0xd6990624, 0xf40e3585, 0x106aa070,
    0x19a4c116, 0x1e376c08, 0x2748774c, 0x34b0bcb5, 0x391c0cb3, 0x4ed8aa4a, 0x5b9cca4f, 0x682e6ff3,
    0x748f82ee, 0x78a5636f, 0x84c87814, 0x8cc70208, 0x90befffa, 0xa4506ceb, 0xbef9a3f7, 0xc67178f2]

def rotateRight (word amount : UInt32) : UInt32 :=
  (word >>> amount) ||| (word <<< (32 - amount))

def messageWords : Bytes → List UInt32
  | b0 :: b1 :: b2 :: b3 :: rest =>
    UInt32.ofNat (Bytes.littleEndian [b3, b2, b1, b0]) :: messageWords rest
  | _ => []

/-- Appends the next schedule word, which mixes four of the last sixteen. -/
def extend (words : Array UInt32) : Array UInt32 :=
  let back := fun distance => words.getD (words.size - distance) 0
  let near := back 2
  let far := back 15
  let sigma0 := rotateRight far 7 ^^^ rotateRight far 18 ^^^ (far >>> 3)
  let sigma1 := rotateRight near 17 ^^^ rotateRight near 19 ^^^ (near >>> 10)
  words.push (back 16 + sigma0 + back 7 + sigma1)

def schedule (block : Bytes) : Array UInt32 :=
  Nat.repeat extend 48 (messageWords block).toArray

def step (words : Array UInt32) (state : State) (index : Nat) : State :=
  let { a, b, c, d, e, f, g, h } := state
  let sum1 := rotateRight e 6 ^^^ rotateRight e 11 ^^^ rotateRight e 25
  let choice := (e &&& f) ^^^ (~~~e &&& g)
  let first := h + sum1 + choice + roots.getD index 0 + words.getD index 0
  let sum0 := rotateRight a 2 ^^^ rotateRight a 13 ^^^ rotateRight a 22
  let majority := (a &&& b) ^^^ (a &&& c) ^^^ (b &&& c)
  { a := first + (sum0 + majority), b := a, c := b, d := c, e := d + first, f := e, g := f, h := g }

def compress (state : State) (block : Bytes) : State :=
  let mixed := (List.range 64).foldl (step (schedule block)) state
  { a := state.a + mixed.a, b := state.b + mixed.b, c := state.c + mixed.c, d := state.d + mixed.d
    e := state.e + mixed.e, f := state.f + mixed.f, g := state.g + mixed.g, h := state.h + mixed.h }

def scheme : Scheme State where
  initial :=
    { a := 0x6a09e667, b := 0xbb67ae85, c := 0x3c6ef372, d := 0xa54ff53a
      e := 0x510e527f, f := 0x9b05688c, g := 0x1f83d9ab, h := 0x5be0cd19 }
  compress := compress
  lengthField := Bytes.ofNatBigEndian 8
  output := fun state =>
    [state.a, state.b, state.c, state.d, state.e, state.f, state.g, state.h].flatMap
      (Bytes.ofNatBigEndian 4 ·.toNat)

theorem length_output (state : State) : (scheme.output state).length = 32 := by
  simp [scheme]

end ArchiveBrowser.Digest.Sha256
